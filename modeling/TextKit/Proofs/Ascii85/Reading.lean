import TextKit.Proofs.Ascii85.Format
import TextKit.Proofs.Outcome

/-!
# Reading gives what a text denotes

A run of the reader takes one step for each character. The invariant of a run is
that the text read so far is some full groups, whose bytes are known, and then the
digits of the open group. The word held for that group is exactly the least word
that begins with these digits, so no sum of a run was wrapped.

A step either adds a digit to the open group or completes it. Runs therefore
follow full groups, and the end of the text deals with the digits that are left.
-/

namespace TextKit.Ascii85

namespace OpenGroup

/-- Read a text from byte offset `position` on, up to its end. Gives the bytes of
the groups completed in it and the group that stays open. -/
def run (g : OpenGroup) (position : Nat) : Text → Except FormatError (Bytes × OpenGroup)
  | [] => .ok ([], g)
  | c :: cs =>
    (g.step position c).bind fun first =>
      (first.2.run (position + c.utf8Size) cs).map fun rest => (first.1 ++ rest.1, rest.2)

@[simp] theorem run_nil (g : OpenGroup) (position : Nat) : g.run position [] = .ok ([], g) := rfl

theorem run_cons (g : OpenGroup) (position : Nat) (c : Char) (cs : Text) :
    g.run position (c :: cs) = (g.step position c).bind fun first =>
      (first.2.run (position + c.utf8Size) cs).map fun rest => (first.1 ++ rest.1, rest.2) := rfl

/-- A text in two parts is read part by part. -/
theorem run_append (g : OpenGroup) (position : Nat) (s t : Text) :
    g.run position (s ++ t) = (g.run position s).bind fun first =>
      (first.2.run (position + Text.byteLength s) t).map fun rest =>
        (first.1 ++ rest.1, rest.2) := by
  induction s generalizing g position with
  | nil =>
      rw [List.nil_append, run_nil, bind_ok, Text.byteLength_nil, Nat.add_zero]
      cases g.run position t <;> rfl
  | cons c cs ih =>
      rw [List.cons_append, run_cons, run_cons]
      cases g.step position c with
      | error e => rfl
      | ok first =>
          simp only [bind_ok, ih, Text.byteLength_cons, Nat.add_assoc]
          cases first.2.run (position + c.utf8Size) cs with
          | error e => rfl
          | ok second =>
              simp only [bind_ok, map_ok]
              cases second.2.run (position + (c.utf8Size + Text.byteLength cs)) t with
              | error e => rfl
              | ok third => simp only [map_ok, List.append_assoc]

theorem run_append_of_ok {g g' : OpenGroup} {position : Nat} {s t : Text} {bytes : Bytes}
    (h : g.run position s = .ok (bytes, g')) :
    g.run position (s ++ t) =
      (g'.run (position + Text.byteLength s) t).map fun rest => (bytes ++ rest.1, rest.2) := by
  rw [run_append, h]
  rfl

theorem run_singleton {g g' : OpenGroup} {position : Nat} {c : Char} {bytes : Bytes}
    (h : g.step position c = .ok (bytes, g')) : g.run position [c] = .ok (bytes, g') := by
  rw [run_cons, h, bind_ok, run_nil, map_ok, List.append_nil]

/-- A run that reaches the end of a text made its first step and went on from there. -/
theorem run_cons_eq_ok {g g' : OpenGroup} {position : Nat} {c : Char} {cs : Text}
    {bytes : Bytes} (h : g.run position (c :: cs) = .ok (bytes, g')) :
    ∃ a b middle, g.step position c = .ok (a, middle) ∧
      middle.run (position + c.utf8Size) cs = .ok (b, g') ∧ bytes = a ++ b := by
  rw [run_cons] at h
  obtain ⟨⟨a, middle⟩, hstep, h⟩ := bind_eq_ok_iff.mp h
  obtain ⟨⟨b, last⟩, hrest, he⟩ := map_eq_ok_iff.mp h
  cases he
  exact ⟨a, b, middle, hstep, hrest, rfl⟩

end OpenGroup

/-- Decoding is a run, closed at the end of the text. -/
theorem decodeFrom_eq (done : Array UInt8) (g : OpenGroup) (position : Nat) (t : Text) :
    decodeFrom done g position t = (g.run position t).bind fun read =>
      (read.2.close (position + Text.byteLength t)).map (done.toList ++ read.1 ++ ·) := by
  induction t generalizing done g position with
  | nil => simp [decodeFrom]
  | cons c cs ih =>
      rw [decodeFrom, OpenGroup.run_cons]
      cases g.step position c with
      | error e => rfl
      | ok first =>
          simp only [bind_ok, ih, Text.byteLength_cons, Nat.add_assoc]
          cases first.2.run (position + c.utf8Size) cs with
          | error e => rfl
          | ok rest => simp

theorem decode_eq (t : Text) :
    decode t = (OpenGroup.empty.run 0 t).bind fun read =>
      (read.2.close (Text.byteLength t)).map (read.1 ++ ·) := by
  rw [decode, decodeFrom_eq]
  simp

theorem decode_eq_ok_iff_run {t : Text} {bytes : Bytes} :
    decode t = .ok bytes ↔ ∃ a b g, OpenGroup.empty.run 0 t = .ok (a, g) ∧
      g.close (Text.byteLength t) = .ok b ∧ bytes = a ++ b := by
  rw [decode_eq, bind_eq_ok_iff]
  constructor
  · rintro ⟨⟨a, g⟩, hrun, h⟩
    obtain ⟨b, hclose, rfl⟩ := map_eq_ok_iff.mp h
    exact ⟨a, b, g, hrun, hclose, rfl⟩
  · rintro ⟨a, b, g, hrun, hclose, rfl⟩
    exact ⟨(a, g), hrun, map_eq_ok_iff.mpr ⟨b, hclose, rfl⟩⟩

end TextKit.Ascii85
