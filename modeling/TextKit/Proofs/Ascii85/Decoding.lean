import TextKit.Proofs.Ascii85.Groups

/-!
# Decoding accepts exactly the format

Every text that a run gets through splits into full groups and the digits that stay
open, and every full group takes the reader from no digits to no digits. What is
left at the end is a short group or nothing, or the text is refused.
-/

namespace TextKit.Ascii85

namespace OpenGroup

/-- A run that is not refused read full groups and left the last digits open. -/
theorem Holds.of_run {g g' : OpenGroup} {p t : Text} {position : Nat} {bytes : Bytes}
    (h : g.Holds p) (hrun : g.run position t = .ok (bytes, g')) :
    ∃ groups last, p ++ t = groups ++ last ∧ FullGroups groups bytes ∧ g'.Holds last := by
  induction t generalizing g p position bytes with
  | nil =>
      cases hrun
      exact ⟨[], p, by simp, .nil, h⟩
  | cons c cs ih =>
      obtain ⟨a, b, middle, hstep, hrest, rfl⟩ := run_cons_eq_ok hrun
      rcases h.of_step hstep with ⟨rfl, hmiddle⟩ | ⟨hgroup, hmiddle⟩
      · obtain ⟨groups, last, he, hgroups, hlast⟩ := ih hmiddle hrest
        exact ⟨groups, last, by simpa using he, hgroups, hlast⟩
      · obtain ⟨groups, last, he, hgroups, hlast⟩ := ih hmiddle hrest
        refine ⟨(p ++ [c]) ++ groups, last, ?_, .cons hgroup hgroups, hlast⟩
        rw [List.append_assoc _ groups, ← he]
        simp

/-- Digits that leave the group incomplete are read without loss. -/
theorem Holds.run_digits {g : OpenGroup} {p t : Text} (h : g.Holds p)
    (ht : ∀ c ∈ t, isDigit c = true) (hlen : p.length + t.length ≤ 4)
    (hfits : leastWord (p ++ t) < 2 ^ 32) (position : Nat) :
    ∃ g', g.run position t = .ok ([], g') ∧ g'.Holds (p ++ t) := by
  induction t generalizing g p position with
  | nil => exact ⟨g, rfl, by simpa using h⟩
  | cons c cs ih =>
      obtain ⟨hc, hcs⟩ := List.forall_mem_cons.mp ht
      rw [List.length_cons] at hlen
      rw [List.append_cons] at hfits ⊢
      obtain ⟨digit, hdigit, hadd⟩ := step_of_isDigit hc
      have hfirst : leastWord (p ++ [c]) < 2 ^ 32 := by
        refine Nat.lt_of_le_of_lt (leastWord_le_append ?_) hfits
        simp
        omega
      obtain ⟨middle, hstep, hmiddle⟩ := h.add_of_length_lt hc hdigit (by omega) hfirst position
      obtain ⟨g', hrun, hg'⟩ := ih hmiddle hcs (by simp; omega) hfits (position + c.utf8Size)
      refine ⟨g', ?_, hg'⟩
      rw [run_cons, hadd, hstep, bind_ok, hrun, map_ok]
      rfl

/-- A full group is read from its first character to its last. -/
theorem run_fullGroup {t : Text} {bytes : Bytes} (h : FullGroup t bytes) (position : Nat) :
    empty.run position t = .ok (bytes, empty) := by
  cases h with
  | zero => exact run_singleton (step_zeroGroup rfl position)
  | digits length_eq digits fits bytes_eq =>
      obtain ⟨front, c, rfl⟩ : ∃ front c, t = front ++ [c] :=
        ⟨_, _, (List.dropLast_concat_getLast (List.ne_nil_of_length_eq_add_one length_eq)).symm⟩
      have hfront : front.length = 4 := by simpa using length_eq
      have hleast : leastWord (front ++ [c]) = numeral (front ++ [c]) :=
        leastWord_of_length_eq length_eq
      have hfits : leastWord (front ++ [c]) < 2 ^ 32 := by omega
      have hfrontFits : leastWord ([] ++ front) < 2 ^ 32 :=
        Nat.lt_of_le_of_lt (leastWord_le_append (by simp; omega)) hfits
      obtain ⟨g, hrun, hg⟩ := holds_empty.run_digits
        (fun d hd => digits d (List.mem_append_left _ hd)) (by simp; omega) hfrontFits position
      obtain ⟨digit, hdigit, hadd⟩ := step_of_isDigit (digits c (by simp))
      have hlast := hg.add_of_length_eq hdigit (by simpa using hfront) hfits
        (position + Text.byteLength front)
      rw [run_append_of_ok hrun, run_singleton ((hadd _ _).trans hlast), map_ok, List.nil_append,
        List.nil_append, hleast, ← bytes_eq.eq_bytesOfWord]

theorem run_fullGroups {t : Text} {bytes : Bytes} (h : FullGroups t bytes) (position : Nat) :
    empty.run position t = .ok (bytes, empty) := by
  induction h generalizing position with
  | nil => rfl
  | cons hgroup _ ih => rw [run_append_of_ok (run_fullGroup hgroup position), ih, map_ok]

private theorem fill_from {k : Nat} (hk : k ≤ 5) {value word : UInt32} :
    ((List.finRange 5).drop k).foldlM (fun value => accumulate? value padDigit) value = some word ↔
      word.toNat = value.toNat + numeral (List.replicate (5 - k) lastChar) := by
  induction hk using Nat.decreasingInduction generalizing value with
  | self =>
      rw [List.drop_of_length_le (by simp), List.foldlM_nil]
      change some value = some word ↔ word.toNat = value.toNat
      rw [Option.some.injEq, ← UInt32.toNat_inj]
      exact eq_comm
  | of_succ k hk ih =>
      have hdrop : (List.finRange 5).drop k = ⟨k, hk⟩ :: (List.finRange 5).drop (k + 1) := by
        rw [List.drop_eq_getElem_cons (by simpa using hk), List.getElem_finRange]
        rfl
      have hsum : numeral (List.replicate (5 - k) lastChar) =
          84 * 85 ^ (4 - k) + numeral (List.replicate (5 - (k + 1)) lastChar) := by
        rw [show 5 - k = 1 + (5 - (k + 1)) by omega, List.replicate_add, numeral_append,
          List.length_replicate, show 5 - (k + 1) = 4 - k by omega]
        rfl
      simp only [hdrop, List.foldlM_cons, Option.bind_eq_bind, Option.bind_eq_some_iff, ih,
        accumulate?_eq_some_iff]
      rw [hsum, show padDigit.toNat = 84 from rfl]
      constructor
      · rintro ⟨middle, hmiddle, hword⟩
        rw [hword, hmiddle, Nat.add_assoc]
      · intro hword
        have hlt := word.toNat_lt
        have hmiddle : (UInt32.ofNat (value.toNat + 84 * 85 ^ (4 - k))).toNat =
            value.toNat + 84 * 85 ^ (4 - k) := UInt32.toNat_ofNat_of_lt' (show _ < 2 ^ 32 by omega)
        exact ⟨_, hmiddle, by rw [hmiddle, hword, Nat.add_assoc]⟩

/-- Filling up gives the number of the filled-up digits, if that is a word. -/
theorem Holds.fill?_eq_some_iff {g : OpenGroup} {p : Text} (h : g.Holds p) {word : UInt32} :
    g.fill? = some word ↔ word.toNat = numeral (padded p) := by
  rw [fill?, fill_from (Nat.le_of_lt g.count.isLt), h.value_eq, h.count_eq, numeral_padded]

/-- Two to four open digits are accepted as a short group. -/
theorem Holds.close_of_two_le {g : OpenGroup} {p : Text} (h : g.Holds p) (htwo : 2 ≤ p.length)
    {position : Nat} {bytes : Bytes} : g.close position = .ok bytes ↔ ShortGroup p bytes := by
  have hcount := h.count_eq
  have hlen := h.length_lt
  have hzero : g.count ≠ 0 := by
    intro heq
    rw [heq] at hcount
    change 0 = p.length at hcount
    omega
  have hone : g.count ≠ 1 := by
    intro heq
    rw [heq] at hcount
    change 1 = p.length at hcount
    omega
  rw [close, if_neg hzero, if_neg hone]
  constructor
  · intro hclose
    cases hfill : g.fill? with
    | none =>
        rw [hfill] at hclose
        cases hclose
    | some word =>
        rw [hfill] at hclose
        cases hclose
        have hword := h.fill?_eq_some_iff.mp hfill
        have hlt := word.toNat_lt
        refine ⟨htwo, by omega, h.digits, by omega, bytesOfWord word.toNat, ?_, by rw [hcount]⟩
        rw [← hword]
        exact fourBytes_bytesOfWord hlt
  · intro hshort
    have hfits := hshort.fits
    obtain ⟨four, hfour, rfl⟩ := hshort.bytes_eq
    have hword : (UInt32.ofNat (numeral (padded p))).toNat = numeral (padded p) :=
      UInt32.toNat_ofNat_of_lt' (show _ < 2 ^ 32 by omega)
    rw [h.fill?_eq_some_iff.mpr hword]
    dsimp only
    rw [hword, hcount, hfour.eq_bytesOfWord]

/-- The end of the text accepts no open digits, or those of a short group. -/
theorem Holds.close_eq_ok_iff {g : OpenGroup} {p : Text} (h : g.Holds p) {position : Nat}
    {bytes : Bytes} : g.close position = .ok bytes ↔ p = [] ∧ bytes = [] ∨ ShortGroup p bytes := by
  by_cases htwo : 2 ≤ p.length
  · have hp : p ≠ [] := by
      rintro rfl
      simp at htwo
    simp only [h.close_of_two_le htwo, hp, false_and, false_or]
  have hshort : ¬ ShortGroup p bytes := fun hs => htwo hs.two_le
  by_cases hzero : g.count = 0
  · have hp := h.count_eq_zero_iff.mp hzero
    simp only [close, hzero, if_true, hp, true_and, Except.ok.injEq]
    rw [hp] at hshort
    simp only [hshort, or_false]
    exact eq_comm
  · have hp := mt h.count_eq_zero_iff.mpr hzero
    have hone : g.count = 1 := by
      have hcount := h.count_eq
      rw [Fin.ext_iff] at hzero ⊢
      change g.count.val ≠ 0 at hzero
      change g.count.val = 1
      omega
    simp [close, hone, hp, hshort]

end OpenGroup

theorem FullGroup.length_bytes {t : Text} {bytes : Bytes} (h : FullGroup t bytes) :
    bytes.length = 4 := by
  cases h with
  | zero => rfl
  | digits _ _ _ bytes_eq => exact bytes_eq.length_eq

theorem ShortGroup.length_bytes {t : Text} {bytes : Bytes} (h : ShortGroup t bytes) :
    bytes.length = t.length - 1 := by
  obtain ⟨four, hfour, rfl⟩ := h.bytes_eq
  have := h.le_four
  rw [List.length_take, hfour.length_eq]
  omega

/-- The digits of a short group fit a word even before they are filled up. -/
theorem ShortGroup.leastWord_lt {t : Text} {bytes : Bytes} (h : ShortGroup t bytes) :
    leastWord t < 2 ^ 32 := by
  have hfits := h.fits
  rw [numeral_padded] at hfits
  omega

/-- Decoding gives just the bytes that the text denotes. -/
theorem decode_eq_ok_iff {t : Text} {bytes : Bytes} : decode t = .ok bytes ↔ Denotes t bytes := by
  rw [decode_eq_ok_iff_run]
  constructor
  · rintro ⟨a, b, g, hrun, hclose, rfl⟩
    obtain ⟨groups, last, ht, hgroups, hlast⟩ := OpenGroup.holds_empty.of_run hrun
    exact ⟨groups, last, a, b, ht, rfl, hgroups, hlast.close_eq_ok_iff.mp hclose⟩
  · rintro ⟨groups, last, a, b, rfl, rfl, hgroups, hlast⟩
    have hrun := OpenGroup.run_fullGroups hgroups 0
    rcases hlast with ⟨rfl, rfl⟩ | hshort
    · exact ⟨a, [], .empty, by simpa using hrun, rfl, rfl⟩
    · obtain ⟨g, hdigits, hg⟩ := OpenGroup.holds_empty.run_digits hshort.digits
        (by simpa using hshort.le_four) (by simpa using hshort.leastWord_lt)
        (0 + Text.byteLength groups)
      refine ⟨a, b, g, ?_, hg.close_eq_ok_iff.mpr (.inr hshort), rfl⟩
      rw [OpenGroup.run_append_of_ok hrun, hdigits, map_ok, List.append_nil]

/-- Decoding accepts exactly the format, with the meaning it gives. On the way every
sum of words is the exact one or is refused, the word of the open group is never a
wrapped one, and the bytes kept of a last group are all there. Places in a group are
below five by their type, so the table of weights is only read inside its bounds. -/
theorem decode_exact (t : Text) :
    (∀ bytes, decode t = .ok bytes ↔ Denotes t bytes) ∧
    (∀ (value digit word : UInt32) (place : Fin 5), accumulate? value digit place = some word ↔
      word.toNat = value.toNat + digit.toNat * 85 ^ (4 - place.val)) ∧
    (∀ read rest bytes g, t = read ++ rest → OpenGroup.empty.run 0 read = .ok (bytes, g) →
      ∃ groups last, read = groups ++ last ∧ FullGroups groups bytes ∧ g.Holds last) ∧
    (∀ bytes g tail, OpenGroup.empty.run 0 t = .ok (bytes, g) →
      g.close (Text.byteLength t) = .ok tail → tail.length = g.count.val - 1) := by
  refine ⟨fun _ => decode_eq_ok_iff, fun _ _ _ _ => accumulate?_eq_some_iff, ?_, ?_⟩
  · intro read rest bytes g _ hrun
    exact OpenGroup.holds_empty.of_run hrun
  · intro bytes g tail hrun hclose
    obtain ⟨groups, last, -, -, hlast⟩ := OpenGroup.holds_empty.of_run hrun
    rw [hlast.count_eq]
    rcases hlast.close_eq_ok_iff.mp hclose with ⟨rfl, rfl⟩ | hshort
    · rfl
    · exact hshort.length_bytes

/-- A full group of digits, `z`, and a short group, of which two digits stay open. -/
theorem decode_exact_of_mixed_groups :
    Denotes ['s', '8', 'W', '-', '!', 'z', '!', '<', 'E'] [255, 255, 255, 255, 0, 0, 0, 0, 1, 1] ∧
    (∃ groups last, ['s', '8', 'W', '-', '!', 'z', '!', '<'] = groups ++ last ∧
      FullGroups groups [255, 255, 255, 255, 0, 0, 0, 0] ∧
      (⟨2, 16581375⟩ : OpenGroup).Holds last) ∧
    ([1, 1] : Bytes).length = (3 : Fin 5).val - 1 :=
  ⟨((decode_exact _).1 _).mp (by decide),
    (decode_exact ['s', '8', 'W', '-', '!', 'z', '!', '<', 'E']).2.2.1 _ ['E'] _ _ rfl (by decide),
    (decode_exact ['s', '8', 'W', '-', '!', 'z', '!', '<', 'E']).2.2.2
      [255, 255, 255, 255, 0, 0, 0, 0] ⟨3, 16841475⟩ [1, 1] (by decide) (by decide)⟩

end TextKit.Ascii85
