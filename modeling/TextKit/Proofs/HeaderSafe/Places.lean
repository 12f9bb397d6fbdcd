import TextKit.Proofs.Ascii85.Faults
import TextKit.Proofs.HeaderSafe.Cuts

/-!
# The places that the reader of header-safe texts names

Bytes are read in two stages, and each stage counts the bytes of the text that it is given. The
first one reads the header-safe text itself, and the character that it refuses is found where its
error says. The second one reads the text without escapes. The character that it refuses stands in
both texts, but every escape in front of it has made the second text one byte shorter. So the place
in its error is right for the header-safe text only if there are no escapes in front.
-/

namespace TextKit

namespace Text

/-- The character whose UTF-8 form starts at a byte offset. -/
def charAt? : Text → Nat → Option Char
  | [], _ => none
  | c :: t, position =>
    if position = 0 then some c
    else if position < c.utf8Size then none
    else charAt? t (position - c.utf8Size)

theorem charAt?_eq_some_iff {t : Text} {position : Nat} {c : Char} :
    charAt? t position = some c ↔
      ∃ front back, t = front ++ c :: back ∧ byteLength front = position := by
  induction t generalizing position with
  | nil => simp [charAt?]
  | cons d t ih =>
      have hd := d.utf8Size_pos
      rw [charAt?]
      constructor
      · intro h
        split at h
        · rename_i hzero
          cases h
          exact ⟨[], t, rfl, hzero.symm⟩
        · split at h
          · cases h
          · obtain ⟨front, back, rfl, hfront⟩ := ih.mp h
            refine ⟨d :: front, back, rfl, ?_⟩
            rw [byteLength_cons, hfront]
            omega
      · rintro ⟨front, back, ht, rfl⟩
        cases front with
        | nil =>
            obtain ⟨rfl, -⟩ := List.cons.inj ht
            exact if_pos rfl
        | cons b front =>
            obtain ⟨rfl, rfl⟩ := List.cons.inj ht
            rw [byteLength_cons, if_neg (by omega), if_neg (by omega)]
            exact ih.mpr ⟨front, back, rfl, by omega⟩

end Text

/-- The character at fault and its place, if an error is about a single character. -/
def FormatError.offender? : FormatError → Option (Char × Nat)
  | invalidCharacter ch position => some (ch, position)
  | misplacedZeroGroup position => some (Ascii85.zeroGroup, position)
  | unexpectedEscape ch position => some (ch, position)
  | overflow _ | truncatedGroup | danglingEscape => none

/-- A character that is no digit is found where the error of Ascii85 says. -/
theorem Ascii85.charAt?_of_decode_eq_error {s : Text} {e : FormatError} {c : Char} {p : Nat}
    (h : Ascii85.decode s = .error e) (hoffender : e.offender? = some (c, p)) :
    s.charAt? p = some c ∧ Ascii85.isDigit c = false := by
  obtain ⟨u, d, w, rfl, -, -, rfl⟩ | ⟨-, -, -, -, -, -, -, ⟨rfl, -⟩ | ⟨rfl, -⟩⟩ :=
    Ascii85.decode_eq_error h
  · have hd : d = c ∧ Text.byteLength u = p ∧ Ascii85.isDigit d = false := by
      unfold Ascii85.faultAt at hoffender
      split at hoffender
      · rename_i hz
        cases hoffender
        exact ⟨hz, rfl, hz ▸ by decide⟩
      · split at hoffender
        · cases hoffender
        · rename_i hdigit
          cases hoffender
          exact ⟨rfl, rfl, Bool.eq_false_iff.mpr hdigit⟩
    obtain ⟨rfl, rfl, hdigit⟩ := hd
    exact ⟨Text.charAt?_eq_some_iff.mpr ⟨u, w, rfl, rfl⟩, hdigit⟩
  · cases hoffender
  · cases hoffender

namespace HeaderSafe

variable {t s : Text} {e : FormatError} {c : Char} {p : Nat}

/-- Unescaping is refused at an escape character that ends the text, or at what stands behind
one in place of a letter. -/
theorem unescapeFrom_eq_error {done : Array Char} {position : Nat}
    (h : unescapeFrom done position t = .error e) :
    ∃ u s, Spells u s ∧
      (t = u ++ [escapeChar] ∧ e = .danglingEscape ∨
        ∃ letter w, t = u ++ escapeChar :: letter :: w ∧
          separator? escapeLetters letter = none ∧
          e = .unexpectedEscape letter (position + Text.byteLength u + escapeChar.utf8Size)) := by
  fun_induction unescapeFrom done position t with
  | case1 => cases h
  | case2 =>
      cases h
      exact ⟨[], [], .nil, .inl ⟨rfl, rfl⟩⟩
  | case3 done position letter rest plain hletter ih =>
      obtain ⟨u, s, hu, ⟨rfl, rfl⟩ | ⟨letter', w, rfl, hnone, rfl⟩⟩ := ih h
      · exact ⟨_, _, .letter (mem_of_separator? hletter) hu, .inl ⟨rfl, rfl⟩⟩
      · refine ⟨_, _, .letter (mem_of_separator? hletter) hu, .inr ⟨letter', w, rfl, hnone, ?_⟩⟩
        simp only [Text.byteLength_cons, Nat.add_assoc]
  | case4 done position letter rest hnone =>
      cases h
      exact ⟨[], [], .nil, .inr ⟨letter, rest, rfl, hnone, rfl⟩⟩
  | case5 done position c cs hne ih =>
      obtain ⟨u, s, hu, ⟨rfl, rfl⟩ | ⟨letter, w, rfl, hnone, rfl⟩⟩ := ih h
      · exact ⟨_, _, hu.single hne, .inl ⟨rfl, rfl⟩⟩
      · refine ⟨_, _, hu.single hne, .inr ⟨letter, w, rfl, hnone, ?_⟩⟩
        simp only [Text.byteLength_cons, Nat.add_assoc]

/-- What is no letter is found where the error of unescaping says. -/
theorem charAt?_of_unescape_eq_error (h : unescape t = .error e)
    (hoffender : e.offender? = some (c, p)) : t.charAt? p = some c := by
  obtain ⟨u, s, -, ⟨-, rfl⟩ | ⟨letter, w, rfl, -, rfl⟩⟩ := unescapeFrom_eq_error h
  · cases hoffender
  · cases hoffender
    refine Text.charAt?_eq_some_iff.mpr ⟨u ++ [escapeChar], w, by simp, ?_⟩
    rw [Text.byteLength_append, Nat.zero_add]
    rfl

/-- What is no digit in the text that another one stands for is in both of them, behind as many
more bytes in the other as there are escapes in front. -/
theorem Spells.exists_of_charAt? (h : Spells t s) (hs : s.charAt? p = some c)
    (hc : Ascii85.isDigit c = false) :
    ∃ front back, t = front ++ c :: back ∧
      Text.byteLength front = p + front.count escapeChar := by
  obtain ⟨u, w, rfl, rfl⟩ := Text.charAt?_eq_some_iff.mp hs
  obtain ⟨front, rest, rfl, hfront, hrest⟩ := h.of_append
  have hseparator : c ∉ separators := by
    have hall : separators.all Ascii85.isDigit = true := by decide
    intro hmem
    rw [List.all_eq_true.mp hall c hmem] at hc
    cases hc
  obtain ⟨back, rfl, -⟩ := hrest.of_cons hseparator
  exact ⟨front, back, rfl, hfront.byteLength_eq⟩

/-- The place in an error is right for the text of the stage that fails. If that is the first
one, the character at fault is found there. If it is the second one, it is found there in the text
without escapes, and behind one more byte of the header-safe text for every escape in front. -/
theorem decode_error_places (h : decode t = .error e) (hoffender : e.offender? = some (c, p)) :
    (unescape t = .error e ∧ t.charAt? p = some c) ∨
      ∃ s, unescape t = .ok s ∧ s.charAt? p = some c ∧
        ∃ front back, t = front ++ c :: back ∧
          Text.byteLength front = p + front.count escapeChar := by
  obtain hfirst | ⟨s, hs, hsecond⟩ := bind_eq_error_iff.mp h
  · exact .inl ⟨hfirst, charAt?_of_unescape_eq_error hfirst hoffender⟩
  · obtain ⟨hplace, hdigit⟩ := Ascii85.charAt?_of_decode_eq_error hsecond hoffender
    exact .inr ⟨s, hs, hplace, (unescape_eq_ok_iff.mp hs).exists_of_charAt? hplace hdigit⟩

/-- The brace is behind one comma, whose escape takes two bytes. -/
theorem decode_error_places_of_brace :
    decode ['~', 'a', '{'] = .error (.invalidCharacter '{' 1) ∧
      (FormatError.invalidCharacter '{' 1).offender? = some ('{', 1) ∧
      ∃ front back, ['~', 'a', '{'] = front ++ '{' :: back ∧
        Text.byteLength front = 1 + front.count escapeChar := by
  have hdecode : decode ['~', 'a', '{'] = .error (.invalidCharacter '{' 1) := by rfl
  refine ⟨hdecode, rfl, ?_⟩
  obtain ⟨hfirst, -⟩ | ⟨-, -, -, hplace⟩ := decode_error_places hdecode rfl
  · cases hfirst
  · exact hplace

/-- So the place in an error is not always that of the character at fault in the text that was
given. Here it is that of the escape letter in front, both for a character outside of the alphabet
and for the short form of a zero group inside a group. -/
theorem decode_error_misplaced :
    (decode ['~', 'a', '{'] = .error (.invalidCharacter '{' 1) ∧
      Text.charAt? ['~', 'a', '{'] 1 = some 'a') ∧
    decode ['~', 'a', 'z'] = .error (.misplacedZeroGroup 1) ∧
      Text.charAt? ['~', 'a', 'z'] 1 = some 'a' := by
  exact ⟨⟨rfl, by decide⟩, rfl, by decide⟩

end HeaderSafe

end TextKit
