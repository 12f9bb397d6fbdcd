import TextKit.FormatError
import TextKit.Proofs.Text.Quoted

/-!
# A wording tells the error

Every kind of error has an opening, the words in front of the first thing that depends on the error.
No opening begins with another one, so a wording tells the kind. What follows the opening begins
with a quoted character or a number, and ends in fixed words or in a number. Both parts can be read
off, so no two errors have the same wording, whatever their characters and positions.
-/

namespace TextKit.FormatError

/-- The kinds of errors. -/
inductive Kind where
  | invalidCharacter
  | misplacedZeroGroup
  | overflow
  | truncatedGroup
  | danglingEscape
  | unexpectedEscape
  deriving DecidableEq

/-- The kind of an error, without the place and the character. -/
def kind : FormatError → Kind
  | invalidCharacter .. => .invalidCharacter
  | misplacedZeroGroup _ => .misplacedZeroGroup
  | overflow _ => .overflow
  | truncatedGroup => .truncatedGroup
  | danglingEscape => .danglingEscape
  | unexpectedEscape .. => .unexpectedEscape

/-- The words with which all wordings of a kind begin. -/
def Kind.opening : Kind → Text
  | invalidCharacter => "Invalid character ".toList
  | misplacedZeroGroup => "'z' at position ".toList
  | overflow => "The group ending at position ".toList
  | truncatedGroup => "The final Ascii85 group must contain more than one character".toList
  | danglingEscape => "'~' cannot be the last character of the encoded string".toList
  | unexpectedEscape => "Unexpected character following '~': ".toList

/-- A character and the position at which it stands. -/
def placed (ch : Char) (position : Nat) : Text :=
  Text.quoted ch ++ (" at position ".toList ++ Nat.toDigits 10 position)

/-- What follows the opening. -/
def details : FormatError → Text
  | invalidCharacter ch position => placed ch position
  | misplacedZeroGroup position =>
    Nat.toDigits 10 position ++ " is only allowed at the start of a group".toList
  | overflow position =>
    Nat.toDigits 10 position ++ " decodes to a value greater than u32::MAX".toList
  | truncatedGroup => []
  | danglingEscape => []
  | unexpectedEscape ch position => placed ch position

theorem toList_placed (opening : String) (ch : Char) (position : Nat) :
    (opening ++ String.ofList (Text.quoted ch) ++ " at position " ++ toString position).toList =
      opening.toList ++ placed ch position := by
  simp only [placed, String.toList_append, String.toList_ofList, Nat.toString_eq_ofList_toDigits,
    List.append_assoc]

theorem toList_numbered (opening ending : String) (position : Nat) :
    (opening ++ toString position ++ ending).toList =
      opening.toList ++ (Nat.toDigits 10 position ++ ending.toList) := by
  simp only [String.toList_append, String.toList_ofList, Nat.toString_eq_ofList_toDigits,
    List.append_assoc]

theorem toList_message (e : FormatError) : e.message.toList = e.kind.opening ++ e.details := by
  cases e with
  | invalidCharacter ch position => exact toList_placed _ ch position
  | misplacedZeroGroup position => exact toList_numbered _ _ position
  | overflow position => exact toList_numbered _ _ position
  | truncatedGroup => exact (List.append_nil _).symm
  | danglingEscape => exact (List.append_nil _).symm
  | unexpectedEscape ch position => exact toList_placed _ ch position

/-- No opening begins with the one of another kind. -/
theorem Kind.eq_of_prefix {k k' : Kind} (h : k.opening <+: k'.opening) : k = k' := by
  revert h
  cases k <;> cases k' <;> decide

theorem placed_inj {c c' : Char} {p p' : Nat} (h : placed c p = placed c' p') :
    c = c' ∧ p = p' := by
  obtain ⟨hc, hrest⟩ := Text.quoted_append_inj h
  exact ⟨hc, Text.toDigits_inj (by decide) (by decide) (List.append_cancel_left hrest)⟩

/-- An error is determined by its kind and what follows the opening. -/
theorem eq_of_details {e e' : FormatError} (hkind : e.kind = e'.kind)
    (hdetails : e.details = e'.details) : e = e' := by
  have hposition : ∀ {p p' : Nat} {ending : Text},
      Nat.toDigits 10 p ++ ending = Nat.toDigits 10 p' ++ ending → p = p' := fun h =>
    Text.toDigits_inj (by decide) (by decide) (List.append_cancel_right h)
  match e, e', hkind with
  | invalidCharacter .., invalidCharacter .., _ =>
      obtain ⟨rfl, rfl⟩ := placed_inj hdetails
      rfl
  | misplacedZeroGroup _, misplacedZeroGroup _, _ => rw [hposition hdetails]
  | overflow _, overflow _, _ => rw [hposition hdetails]
  | truncatedGroup, truncatedGroup, _ => rfl
  | danglingEscape, danglingEscape, _ => rfl
  | unexpectedEscape .., unexpectedEscape .., _ =>
      obtain ⟨rfl, rfl⟩ := placed_inj hdetails
      rfl

/-- Two errors are equal just when their wordings are. -/
theorem beq_iff_message_eq (e e' : FormatError) : (e == e') = true ↔ e.message = e'.message := by
  rw [beq_iff_eq]
  constructor
  · exact congrArg message
  · intro h
    have htext : e.kind.opening ++ e.details = e'.kind.opening ++ e'.details := by
      rw [← toList_message, ← toList_message, h]
    have hkind : e.kind = e'.kind := by
      have hprefix : e.kind.opening <+: e'.kind.opening ++ e'.details :=
        htext ▸ List.prefix_append _ _
      rcases List.prefix_or_prefix_of_prefix hprefix (List.prefix_append _ _) with hle | hge
      · exact Kind.eq_of_prefix hle
      · exact (Kind.eq_of_prefix hge).symm
    rw [hkind] at htext
    exact eq_of_details hkind (List.append_cancel_left htext)

end TextKit.FormatError
