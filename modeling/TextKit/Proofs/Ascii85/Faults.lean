import TextKit.Proofs.Ascii85.Decoding

/-!
# Faults are found at the earliest place

A text is viable if it begins a text that is accepted. As long as a run is not refused, what
it has read is viable, since the digits that stay open can be followed by digits of value
zero: these complete the group and leave its word as it is. The first character that cannot
be read ends this for good, and its kind alone says what the fault is.

A text that is read to its end and still refused has a last group that is too short, or too
great once it is filled up. Such a text is viable itself.
-/

namespace TextKit

/-- The byte offset that an error names. -/
def FormatError.position? : FormatError → Option Nat
  | invalidCharacter _ position => some position
  | misplacedZeroGroup position => some position
  | overflow position => some position
  | truncatedGroup => none
  | danglingEscape => none
  | unexpectedEscape _ position => some position

namespace Ascii85

/-- Some text that begins with this one is accepted. -/
def Viable (t : Text) : Prop := ∃ rest bytes, decode (t ++ rest) = .ok bytes

/-- What is wrong with a character that cannot be read where it stands. -/
def faultAt (c : Char) (position : Nat) : FormatError :=
  if c = zeroGroup then .misplacedZeroGroup position
  else if isDigit c = true then .overflow position
  else .invalidCharacter c position

theorem position?_faultAt (c : Char) (position : Nat) :
    (faultAt c position).position? = some position := by
  unfold faultAt
  split
  · rfl
  · split <;> rfl

theorem numeral_replicate_firstChar (k : Nat) : numeral (List.replicate k firstChar) = 0 := by
  rw [numeral_eq_ofDigits, List.map_replicate, List.reverse_replicate]
  exact Nat.ofDigits_replicate_zero

/-- Digits of value zero complete a group with the least word it can have. -/
theorem fullGroup_of_leastWord_lt {p : Text} (hp : ∀ c ∈ p, isDigit c = true)
    (hlen : p.length ≤ 5) (hfits : leastWord p < 2 ^ 32) :
    FullGroup (p ++ List.replicate (5 - p.length) firstChar) (bytesOfWord (leastWord p)) := by
  have hword : numeral (p ++ List.replicate (5 - p.length) firstChar) = leastWord p := by
    rw [numeral_append, numeral_replicate_firstChar, List.length_replicate, Nat.add_zero,
      leastWord]
  refine .digits ?_ ?_ ?_ ?_
  · rw [List.length_append, List.length_replicate]
    omega
  · refine List.forall_mem_append.mpr ⟨hp, ?_⟩
    intro c hc
    rw [List.eq_of_mem_replicate hc]
    rfl
  · omega
  · rw [hword]
    exact fourBytes_bytesOfWord hfits

theorem FullGroups.concat {t s : Text} {a b : Bytes} (h : FullGroups t a)
    (hgroup : FullGroup s b) : FullGroups (t ++ s) (a ++ b) := by
  induction h with
  | nil => simpa using FullGroups.cons hgroup .nil
  | cons hfirst _ ih =>
      rw [List.append_assoc, List.append_assoc]
      exact .cons hfirst ih

namespace OpenGroup

variable {g : OpenGroup} {t : Text} {c : Char} {position : Nat} {bytes : Bytes} {e : FormatError}

/-- A run that is refused is refused at a step, after one that was not. -/
theorem run_eq_error (h : g.run position t = .error e) :
    ∃ u c w bytes g', t = u ++ c :: w ∧ g.run position u = .ok (bytes, g') ∧
      g'.step (position + Text.byteLength u) c = .error e := by
  induction t generalizing g position with
  | nil => cases h
  | cons c cs ih =>
      rw [run_cons] at h
      obtain hstep | ⟨⟨a, middle⟩, hstep, hrest⟩ := bind_eq_error_iff.mp h
      · exact ⟨[], c, cs, [], g, rfl, rfl, hstep⟩
      · obtain ⟨u, d, w, b, g', rfl, hrun, hlast⟩ := ih (map_eq_error_iff.mp hrest)
        refine ⟨c :: u, d, w, a ++ b, g', rfl, ?_, ?_⟩
        · rw [run_cons, hstep, bind_ok, hrun, map_ok]
        · rwa [Text.byteLength_cons, ← Nat.add_assoc]

/-- The error of a step depends only on the character. -/
theorem eq_faultAt_of_step (h : g.step position c = .error e) : e = faultAt c position := by
  by_cases hz : c = zeroGroup
  · by_cases hcount : g.count = 0
    · simp [step, hz, hcount] at h
    · simp only [step, if_pos hz, if_neg hcount] at h
      cases h
      rw [faultAt, if_pos hz]
  · rw [faultAt, if_neg hz]
    by_cases hc : isDigit c = true
    · obtain ⟨digit, -, hadd⟩ := step_of_isDigit hc
      rw [hadd, add] at h
      split at h
      · cases h
        rw [if_pos hc]
      · split at h <;> cases h
    · simp only [step, if_neg hz, digit?, if_neg hc] at h
      cases h
      rw [if_neg hc]

/-- What a run has read is viable. -/
theorem viable_of_run (h : empty.run 0 t = .ok (bytes, g)) : Viable t := by
  obtain ⟨groups, last, rfl, hgroups, hlast⟩ := holds_empty.of_run h
  have hfits : leastWord last < 2 ^ 32 := by
    rw [← hlast.value_eq]
    exact g.value.toNat_lt
  have hfull := hgroups.concat
    (fullGroup_of_leastWord_lt hlast.digits (Nat.le_of_lt hlast.length_lt) hfits)
  have hdenotes : Denotes ((groups ++ last) ++ List.replicate (5 - last.length) firstChar)
      (bytes ++ bytesOfWord (leastWord last)) :=
    ⟨_, [], _, [], by simp, by simp, hfull, .inl ⟨rfl, rfl⟩⟩
  exact ⟨_, _, decode_eq_ok_iff.mpr hdenotes⟩

/-- A character that is refused ends every text with it. -/
theorem not_viable_of_step (h : empty.run 0 t = .ok (bytes, g))
    (hstep : g.step (Text.byteLength t) c = .error e) : ¬ Viable (t ++ [c]) := by
  rintro ⟨rest, result, hdecode⟩
  obtain ⟨a, b, g', hrun, -, -⟩ := decode_eq_ok_iff_run.mp hdecode
  rw [List.append_assoc, run_append_of_ok h, List.singleton_append, run_cons, Nat.zero_add, hstep,
    bind_error, map_error] at hrun
  cases hrun

/-- The end of the text refuses one open digit, or more that are too great when filled up. -/
theorem Holds.of_close_eq_error {p : Text} (h : g.Holds p) (hclose : g.close position = .error e) :
    e = .truncatedGroup ∧ p.length = 1 ∨
      e = .overflow position ∧ 2 ≤ p.length ∧ p.length ≤ 4 := by
  have hcount := h.count_eq
  have hlen := h.length_lt
  unfold close at hclose
  split at hclose
  · cases hclose
  · rename_i hzero
    split at hclose
    · rename_i hone
      cases hclose
      exact .inl ⟨rfl, by rw [← hcount, hone]; rfl⟩
    · rename_i hone
      split at hclose
      · cases hclose
        rw [Fin.ext_iff] at hzero hone
        change g.count.val ≠ 0 at hzero
        change g.count.val ≠ 1 at hone
        exact .inr ⟨rfl, by omega, by omega⟩
      · cases hclose

end OpenGroup

/-- A text is refused at its first character that no accepted text has there, or else for
the digits that its end leaves open. -/
theorem decode_eq_error {t : Text} {e : FormatError} (h : decode t = .error e) :
    (∃ u c w, t = u ++ c :: w ∧ Viable u ∧ ¬ Viable (u ++ [c]) ∧
      e = faultAt c (Text.byteLength u)) ∨
    Viable t ∧ ∃ groups last bytes, t = groups ++ last ∧ FullGroups groups bytes ∧
      (∀ c ∈ last, isDigit c = true) ∧
      (e = .truncatedGroup ∧ last.length = 1 ∨
        e = .overflow (Text.byteLength t) ∧ 2 ≤ last.length ∧ last.length ≤ 4) := by
  rw [decode_eq] at h
  obtain hrun | ⟨⟨bytes, g⟩, hrun, hclose⟩ := bind_eq_error_iff.mp h
  · obtain ⟨u, c, w, bytes, g, rfl, hread, hstep⟩ := OpenGroup.run_eq_error hrun
    rw [Nat.zero_add] at hstep
    exact .inl ⟨u, c, w, rfl, OpenGroup.viable_of_run hread,
      OpenGroup.not_viable_of_step hread hstep, OpenGroup.eq_faultAt_of_step hstep⟩
  · obtain ⟨groups, last, ht, hgroups, hlast⟩ := OpenGroup.holds_empty.of_run hrun
    exact .inr ⟨OpenGroup.viable_of_run hrun, groups, last, bytes, ht, hgroups, hlast.digits,
      hlast.of_close_eq_error (map_eq_error_iff.mp hclose)⟩

/-- Decoding fails at the earliest place and for the right reason. An error with a place
inside of the text is there because what stands before it can still be completed, but not
with the character at that place, which alone decides on the kind of the error. Any other
error is about the last group of a text that can be completed: one digit is too few, and
two to four are too great when they are filled up. -/
theorem decode_fails_earliest {t : Text} {e : FormatError} (h : decode t = .error e) :
    (∀ p, e.position? = some p → p < Text.byteLength t →
      ∃ u c w, t = u ++ c :: w ∧ Text.byteLength u = p ∧ Viable u ∧ ¬ Viable (u ++ [c]) ∧
        e = faultAt c p) ∧
    (e = .truncatedGroup ∨ e = .overflow (Text.byteLength t) →
      Viable t ∧ (¬ ∃ bytes, decode t = .ok bytes) ∧
      ∃ groups last bytes, t = groups ++ last ∧ FullGroups groups bytes ∧
        (∀ c ∈ last, isDigit c = true) ∧
        (e = .truncatedGroup → last.length = 1) ∧
        (e = .overflow (Text.byteLength t) → 2 ≤ last.length ∧ last.length ≤ 4)) ∧
    ((∃ p, e.position? = some p ∧ p < Text.byteLength t) ∨
      e = .truncatedGroup ∨ e = .overflow (Text.byteLength t)) := by
  have hrefused : ¬ ∃ bytes, decode t = .ok bytes := by
    rintro ⟨bytes, hbytes⟩
    rw [h] at hbytes
    cases hbytes
  obtain ⟨u, c, w, rfl, hu, huc, rfl⟩ | ⟨ht, groups, last, bytes, heq, hgroups, hdigits, hlast⟩ :=
    decode_eq_error h
  · have hposition := position?_faultAt c (Text.byteLength u)
    have hlt : Text.byteLength u < Text.byteLength (u ++ c :: w) := by
      have hc := c.utf8Size_pos
      rw [Text.byteLength_append, Text.byteLength_cons]
      omega
    refine ⟨?_, ?_, .inl ⟨_, hposition, hlt⟩⟩
    · intro p hp _
      rw [hposition] at hp
      cases hp
      exact ⟨u, c, w, rfl, rfl, hu, huc, rfl⟩
    · -- A place inside of the text is neither missing nor its end.
      rintro (htruncated | hoverflow)
      · rw [htruncated] at hposition
        cases hposition
      · rw [hoverflow] at hposition
        exact absurd (Option.some.inj hposition) (Nat.ne_of_gt hlt)
  · obtain ⟨rfl, hone⟩ | ⟨rfl, htwo, hfour⟩ := hlast
    · refine ⟨?_, ?_, .inr (.inl rfl)⟩
      · intro p hp
        cases hp
      · intro _
        refine ⟨ht, hrefused, groups, last, bytes, heq, hgroups, hdigits, fun _ => hone, ?_⟩
        intro hne
        cases hne
    · refine ⟨?_, ?_, .inr (.inr rfl)⟩
      · intro p hp hlt
        cases hp
        exact absurd hlt (Nat.lt_irrefl _)
      · intro _
        refine ⟨ht, hrefused, groups, last, bytes, heq, hgroups, hdigits, ?_,
          fun _ => ⟨htwo, hfour⟩⟩
        intro hne
        cases hne

/-- The second group is given up at its fifth digit. Without that digit it is incomplete, and
three digits of it are too great when filled up. -/
theorem decode_fails_earliest_of_great_group :
    (∃ u c w, ['z', 's', '8', 'W', '-', '"', '!'] = u ++ c :: w ∧ Text.byteLength u = 5 ∧
      Viable u ∧ ¬ Viable (u ++ [c]) ∧ FormatError.overflow 5 = faultAt c 5) ∧
    Viable ['z', 's'] ∧ Viable ['z', 's', '8', 'W'] :=
  ⟨(decode_fails_earliest (t := ['z', 's', '8', 'W', '-', '"', '!']) (by decide)).1 5 rfl
      (by decide),
    ((decode_fails_earliest (t := ['z', 's']) (by decide)).2.1 (.inl rfl)).1,
    ((decode_fails_earliest (t := ['z', 's', '8', 'W']) (by decide)).2.1 (.inr rfl)).1⟩

end Ascii85

end TextKit
