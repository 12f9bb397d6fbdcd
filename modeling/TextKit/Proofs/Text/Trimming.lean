import Mathlib.Data.List.TakeWhile
import TextKit.Text.Blank

/-!
# What trimming leaves

Trimming takes a text apart into a front, a core and a back: all that is dropped satisfies the
predicate, and the core neither begins nor ends with such a character. There is only one way to
take a text apart like this. So a core in any frame of characters to drop is what trimming
leaves, and characters to drop make no difference at either end.

Line ends are blank, and characters that are visible in ASCII are not.
-/

namespace TextKit.Text

variable {p : Char → Bool} {t front back : Text}

/-- A text that neither begins nor ends with a character to drop. -/
structure Tight (p : Char → Bool) (t : Text) : Prop where
  head : ∀ c, t.head? = some c → p c = false
  last : ∀ c, t.getLast? = some c → p c = false

theorem tight_of_forall (h : ∀ c ∈ t, p c = false) : Tight p t where
  head c hc := h c (List.mem_of_head? hc)
  last c hc := h c (List.mem_of_getLast? hc)

/-- An ending of characters to drop makes no difference. -/
theorem dropEndWhile_append (h : ∀ c ∈ back, p c = true) :
    dropEndWhile p (t ++ back) = dropEndWhile p t := by
  have hback : ∀ c ∈ back.reverse, p c = true := fun c hc => h c (List.mem_reverse.mp hc)
  rw [dropEndWhile, List.reverse_append, List.dropWhile_append_of_pos hback, dropEndWhile]

theorem dropEndWhile_eq_self (h : ∀ c, t.getLast? = some c → p c = false) :
    dropEndWhile p t = t := by
  rw [dropEndWhile, List.reverse_eq_iff]
  cases hreverse : t.reverse with
  | nil => rfl
  | cons c rest =>
      have hlast : t.getLast? = some c := by rw [List.getLast?_eq_head?_reverse, hreverse]; rfl
      exact List.dropWhile_cons_of_neg (by simp [h c hlast])

/-- What is dropped is an ending of such characters. -/
theorem exists_dropEndWhile_append (p : Char → Bool) (t : Text) :
    ∃ back, t = dropEndWhile p t ++ back ∧ ∀ c ∈ back, p c = true := by
  refine ⟨(t.reverse.takeWhile p).reverse, ?_, ?_⟩
  · rw [dropEndWhile, ← List.reverse_append, List.takeWhile_append_dropWhile,
      List.reverse_reverse]
  · intro c hc
    exact List.mem_takeWhile_imp (List.mem_reverse.mp hc)

theorem getLast?_dropEndWhile {c : Char} (h : (dropEndWhile p t).getLast? = some c) :
    p c = false := by
  have hhead := List.head?_dropWhile_not p t.reverse
  rw [dropEndWhile, List.getLast?_reverse] at h
  rw [h] at hhead
  exact hhead

/-- A beginning of characters to drop makes no difference. -/
theorem trimWhile_append_left (h : ∀ c ∈ front, p c = true) :
    trimWhile p (front ++ t) = trimWhile p t := by
  rw [trimWhile, List.dropWhile_append_of_pos h, trimWhile]

theorem trimWhile_append_right (h : ∀ c ∈ back, p c = true) :
    trimWhile p (t ++ back) = trimWhile p t := by
  rw [trimWhile, List.dropWhile_append, trimWhile]
  split
  · rename_i hempty
    -- All of the text is dropped from its beginning, and the ending with it.
    rw [List.isEmpty_iff.mp hempty, List.dropWhile_eq_nil_iff.mpr h]
  · exact dropEndWhile_append h

theorem Tight.trimWhile_eq (h : Tight p t) : trimWhile p t = t := by
  have hdrop : t.dropWhile p = t := by
    cases t with
    | nil => rfl
    | cons c rest => exact List.dropWhile_cons_of_neg (by simp [h.head c rfl])
  rw [trimWhile, hdrop, dropEndWhile_eq_self h.last]

/-- A text is what trimming leaves of it, in a frame of what is dropped. -/
theorem exists_frame_trimWhile (p : Char → Bool) (t : Text) :
    ∃ front back, t = front ++ (trimWhile p t ++ back) ∧ (∀ c ∈ front, p c = true) ∧
      (∀ c ∈ back, p c = true) ∧ Tight p (trimWhile p t) := by
  obtain ⟨back, hback, hdropped⟩ := exists_dropEndWhile_append p (t.dropWhile p)
  refine ⟨t.takeWhile p, back, ?_, fun c => List.mem_takeWhile_imp, hdropped, ?_, ?_⟩
  · rw [trimWhile, ← hback, List.takeWhile_append_dropWhile]
  · -- The core begins where the text does once its beginning is dropped.
    intro c hc
    have hhead := List.head?_dropWhile_not p t
    have hfirst : (t.dropWhile p).head? = some c := by
      rw [hback, List.head?_append]
      exact Option.or_eq_some_iff.mpr (.inl hc)
    rw [hfirst] at hhead
    exact hhead
  · intro c hc
    exact getLast?_dropEndWhile hc

/-- A tight text is what trimming leaves of it in any frame of characters to drop. -/
theorem Tight.trimWhile_frame (h : Tight p t) (hfront : ∀ c ∈ front, p c = true)
    (hback : ∀ c ∈ back, p c = true) : trimWhile p (front ++ (t ++ back)) = t := by
  rw [trimWhile_append_left hfront, trimWhile_append_right hback, h.trimWhile_eq]

theorem isBlank_of_isLineEnd {c : Char} (h : isLineEnd c = true) : isBlank c = true := by
  rw [isLineEnd, Bool.or_eq_true, beq_iff_eq, beq_iff_eq] at h
  obtain rfl | rfl := h <;> decide

theorem isBlank_eq_false_of_visible {c : Char} (hlow : 33 ≤ c.toNat) (hhigh : c.toNat ≤ 126) :
    isBlank c = false := by
  rw [isBlank, List.any_eq_false]
  have hranges : ∀ r ∈ blankRanges, r.2 < 33 ∨ 126 < r.1 := by decide
  intro r hr
  have hapart := hranges r hr
  simp only [Bool.and_eq_true, decide_eq_true_eq]
  omega

/-- A line end behind a text is no different from the blanks that are trimmed. -/
theorem trim_append_lineEnd (t : Text) : trim (t ++ ['\n']) = trim t :=
  trimWhile_append_right (by simp; decide)

/-- The end of its line is dropped from behind a text that does not end in a line end itself. -/
theorem trimLineEnds_append_lineFeed (h : ∀ c, t.getLast? = some c → isLineEnd c = false) :
    trimLineEnds (t ++ ['\n']) = t := by
  have hline : ∀ c ∈ ['\n'], isLineEnd c = true := List.forall_mem_singleton.mpr (by decide)
  rw [trimLineEnds, dropEndWhile_append hline, dropEndWhile_eq_self h]

/-- Dropping line ends first leaves the same to trim. -/
theorem trim_trimLineEnds (t : Text) : trim (trimLineEnds t) = trim t := by
  obtain ⟨ends, heq, hends⟩ := exists_dropEndWhile_append isLineEnd t
  have hblank : ∀ c ∈ ends, isBlank c = true := fun c hc => isBlank_of_isLineEnd (hends c hc)
  have hsame := trimWhile_append_right (t := dropEndWhile isLineEnd t) hblank
  rw [← heq] at hsame
  exact hsame.symm

end TextKit.Text
