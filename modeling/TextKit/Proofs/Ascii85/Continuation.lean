import TextKit.Proofs.Ascii85.Decoding

/-!
# Reading on where a group has ended

Texts are read alike wherever they begin, except that errors are placed further on. So what a text
adds to the bytes of another one in front is what it denotes by itself, provided that the text in
front leaves no group open.

Whether it does is seen from its bytes. Full groups have four bytes each, and a short group has one
to three, so the number of bytes is a multiple of four if and only if there is no short group.
-/

namespace TextKit.Ascii85

namespace OpenGroup

variable (g : OpenGroup) (offset position : Nat)

theorem add_shift (digit : UInt32) :
    g.add digit (offset + position) = (g.add digit position).mapError (.shift offset) := by
  unfold add
  split
  · rfl
  · split <;> rfl

theorem step_shift (c : Char) :
    g.step (offset + position) c = (g.step position c).mapError (.shift offset) := by
  unfold step
  split
  · split <;> rfl
  · split
    · rfl
    · exact g.add_shift offset position _

/-- A run that begins further on has its errors further on. -/
theorem run_shift (t : Text) :
    g.run (offset + position) t = (g.run position t).mapError (.shift offset) := by
  induction t generalizing g position with
  | nil => rfl
  | cons c cs ih =>
      rw [run_cons, run_cons, step_shift, Nat.add_assoc]
      cases g.step position c with
      | error e => rfl
      | ok first =>
          simp only [mapError_ok, bind_ok, ih]
          cases first.2.run (position + c.utf8Size) cs with
          | error e => rfl
          | ok rest => rfl

theorem close_shift :
    g.close (offset + position) = (g.close position).mapError (.shift offset) := by
  unfold close
  split
  · rfl
  · split
    · rfl
    · split <;> rfl

end OpenGroup

theorem FullGroups.dvd_length_bytes {t : Text} {bytes : Bytes} (h : FullGroups t bytes) :
    4 ∣ bytes.length := by
  induction h with
  | nil => exact Nat.dvd_zero 4
  | cons hgroup _ ih =>
      rw [List.length_append, hgroup.length_bytes]
      exact Nat.dvd_add (Nat.dvd_refl 4) ih

/-- A text for whole groups of bytes is read without leaving a group open. -/
theorem run_of_dvd_length {s : Text} {a : Bytes} (h : decode s = .ok a) (hlen : 4 ∣ a.length) :
    OpenGroup.empty.run 0 s = .ok (a, .empty) := by
  obtain ⟨groups, last, front, back, rfl, rfl, hgroups, ⟨rfl, rfl⟩ | hshort⟩ :=
    decode_eq_ok_iff.mp h
  · rw [List.append_nil, List.append_nil]
    exact OpenGroup.run_fullGroups hgroups 0
  · rw [List.length_append, Nat.dvd_add_right hgroups.dvd_length_bytes,
      hshort.length_bytes] at hlen
    have htwo := hshort.two_le
    have hfour := hshort.le_four
    omega

/-- A text behind whole groups is read as it is by itself, with its errors placed further on. -/
theorem decode_append {s : Text} {a : Bytes} (h : decode s = .ok a) (hlen : 4 ∣ a.length)
    (t : Text) :
    decode (s ++ t) = ((decode t).map (a ++ ·)).mapError (.shift (Text.byteLength s)) := by
  have hrun := OpenGroup.run_append_of_ok (t := t) (run_of_dvd_length h hlen)
  rw [Nat.zero_add, ← Nat.add_zero (Text.byteLength s), OpenGroup.run_shift] at hrun
  rw [decode_eq, decode_eq, hrun]
  cases OpenGroup.empty.run 0 t with
  | error e => rfl
  | ok read =>
      simp only [mapError_ok, map_ok, bind_ok, Text.byteLength_append, OpenGroup.close_shift]
      cases read.2.close (Text.byteLength t) with
      | error e => rfl
      | ok rest => simp

-- A digit is left open in front, so the bytes of the two texts do not add up.
example : decode ['!', '!'] = .ok [0] ∧ decode ['!', '!', '!', '!'] = .ok [0, 0, 0] := by decide

/-- Behind a text for whole groups of bytes, a text adds the bytes that it denotes by itself. If it
is refused, both together are refused for the same reason, found behind as many more bytes as the
text in front has. -/
theorem decode_behind_groups {s : Text} {a : Bytes} (h : decode s = .ok a) (hlen : 4 ∣ a.length)
    (t : Text) :
    (∀ b, decode t = .ok b → decode (s ++ t) = .ok (a ++ b)) ∧
      ∀ e, decode t = .error e → decode (s ++ t) = .error (e.shift (Text.byteLength s)) := by
  constructor
  · intro b hb
    rw [decode_append h hlen, hb, map_ok, mapError_ok]
  · intro e he
    rw [decode_append h hlen, he, map_error, mapError_error]

/-- Behind a short form and five digits there is a short group, one that is too great when it is
filled up, a character that is none of the alphabet, and a digit without another one. -/
theorem decode_behind_groups_of_eight_bytes :
    decode ['z', 's', '8', 'W', '-', '!'] = .ok [0, 0, 0, 0, 255, 255, 255, 255] ∧
    decode (['z', 's', '8', 'W', '-', '!'] ++ ['!', '<']) =
      .ok ([0, 0, 0, 0, 255, 255, 255, 255] ++ [1]) ∧
    decode (['z', 's', '8', 'W', '-', '!'] ++ ['s', '8']) = .error (.overflow 8) ∧
    decode (['z', 's', '8', 'W', '-', '!'] ++ ['!', '€', '!']) =
      .error (.invalidCharacter '€' 7) ∧
    decode (['z', 's', '8', 'W', '-', '!'] ++ ['z', '!']) = .error .truncatedGroup := by
  have hfront : decode ['z', 's', '8', 'W', '-', '!'] = .ok [0, 0, 0, 0, 255, 255, 255, 255] := by
    decide
  have hlen : 4 ∣ ([0, 0, 0, 0, 255, 255, 255, 255] : Bytes).length := by decide
  exact ⟨hfront, (decode_behind_groups hfront hlen ['!', '<']).1 _ (by decide),
    (decode_behind_groups hfront hlen ['s', '8']).2 (.overflow 2) (by decide),
    (decode_behind_groups hfront hlen ['!', '€', '!']).2 (.invalidCharacter '€' 1) (by decide),
    (decode_behind_groups hfront hlen ['z', '!']).2 .truncatedGroup (by decide)⟩

end TextKit.Ascii85
