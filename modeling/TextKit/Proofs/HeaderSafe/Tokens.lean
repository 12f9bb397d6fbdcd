import TextKit.Codec
import TextKit.Proofs.Ascii85.RoundTrip
import TextKit.Proofs.HeaderSafe.Escaping

/-!
# Bytes as header tokens

Bytes are written as header-safe text without a check, because every character of an
Ascii85 text may be escaped. The codes of these characters are all legal in the tokens
of a header. They are read back in two stages, first the Ascii85 text and then the bytes,
so both codecs return what they were given.
-/

namespace TextKit.HeaderSafe

/-- The separators that a token may not hold. Two of them are no digits. -/
def tokenSeparators : List Char := separators ++ ['{', '}']

/-- The characters of tokens: those that are visible in ASCII, except for separators. -/
def IsTokenChar (c : Char) : Prop :=
  33 ≤ c.toNat ∧ c.toNat ≤ 126 ∧ c ∉ tokenSeparators

instance (c : Char) : Decidable (IsTokenChar c) :=
  inferInstanceAs (Decidable (_ ∧ _ ∧ _))

theorem isEscapable_of_inAlphabet {c : Char} (h : Ascii85.InAlphabet c) :
    isEscapable c = true := by
  rcases h with hdigit | rfl
  · rw [isEscapable, hdigit, Bool.or_true]
  · rfl

/-- Digits that are no separators may be copied into a token, and so may `z`. -/
theorem isTokenChar_of_inAlphabet {c : Char} (h : Ascii85.InAlphabet c) (hc : c ∉ separators) :
    IsTokenChar c := by
  rcases h with hdigit | rfl
  · obtain ⟨hlow, hhigh⟩ := Ascii85.isDigit_iff.mp hdigit
    change c.toNat ≤ 117 at hhigh
    refine ⟨hlow, by omega, ?_⟩
    rw [tokenSeparators, List.mem_append, not_or]
    refine ⟨hc, ?_⟩
    rw [List.mem_cons, List.mem_singleton, not_or]
    constructor
    · rintro rfl
      exact absurd hhigh (by decide)
    · rintro rfl
      exact absurd hhigh (by decide)
  · decide

/-- The codes of Ascii85 characters are legal in tokens. -/
theorem isTokenChar_of_mem_escapeOne {c d : Char} (hc : Ascii85.InAlphabet c)
    (hd : d ∈ escapeOne c) : IsTokenChar d := by
  have hsubstitutes : ∀ p ∈ substitutes, IsTokenChar p.2 := by decide
  have hletters : ∀ p ∈ escapeLetters, IsTokenChar p.2 := by decide
  rcases escapeOne_cases c with ⟨code, hcode, heq⟩ | ⟨letter, hletter, heq⟩ | ⟨hne, heq⟩
  · rw [heq, List.mem_singleton] at hd
    exact hd ▸ hsubstitutes _ hcode
  · rw [heq, List.mem_cons, List.mem_singleton] at hd
    rcases hd with rfl | rfl
    · decide
    · exact hletters _ hletter
  · rw [heq, List.mem_singleton] at hd
    exact hd ▸ isTokenChar_of_inAlphabet hc hne

section Bytes

variable (bytes : Bytes)

theorem isEscapable_of_mem_encode :
    ∀ c ∈ Ascii85.encode bytes, isEscapable c = true :=
  fun c hc => isEscapable_of_inAlphabet ((Ascii85.denotes_encode bytes).inAlphabet c hc)

/-- The check of escaping finds nothing to refuse in the text of bytes. -/
theorem escape_encode : escape (Ascii85.encode bytes) = .ok (encode bytes) :=
  escape_eq_ok_iff.mpr ⟨isEscapable_of_mem_encode bytes, rfl⟩

theorem isTokenChar_of_mem_encode : ∀ c ∈ encode bytes, IsTokenChar c := by
  intro c hc
  obtain ⟨d, hd, hcode⟩ := List.mem_flatMap.mp hc
  exact isTokenChar_of_mem_escapeOne ((Ascii85.denotes_encode bytes).inAlphabet d hd) hcode

theorem decode_headerSafe_text : decode (encode bytes) = .ok bytes := by
  have hunescape : unescape (encode bytes) = .ok (Ascii85.encode bytes) :=
    unescape_flatMap (isEscapable_of_mem_encode bytes)
  change (unescape (encode bytes)).bind Ascii85.decode = .ok bytes
  rw [hunescape, bind_ok]
  exact Ascii85.decode_eq_ok_iff.mpr (Ascii85.denotes_encode bytes)

end Bytes

end TextKit.HeaderSafe

namespace TextKit.Codec

/-- A codec returns bytes if it reads what it writes for them. -/
theorem roundTrips_eq_true {codec : Codec (Except FormatError)} {bytes : Bytes} {text : Text}
    (hencode : codec.encode bytes = .ok text) (hdecode : codec.decode text = .ok bytes) :
    codec.roundTrips bytes = .ok true := by
  change (codec.encode bytes).bind (fun text =>
    (codec.decode text).bind fun back => .ok (back == bytes)) = .ok true
  rw [hencode, bind_ok, hdecode, bind_ok, beq_self_eq_true]

/-- Bytes are written as header-safe text just as their Ascii85 text is escaped. Only
characters of tokens occur in it, it is read back as the bytes, and both codecs pass
their own check on all bytes. -/
theorem headerSafe_token_roundTrips (bytes : Bytes) :
    HeaderSafe.escape (Ascii85.encode bytes) = .ok (HeaderSafe.encode bytes) ∧
    (∀ c ∈ HeaderSafe.encode bytes, HeaderSafe.IsTokenChar c) ∧
    HeaderSafe.decode (HeaderSafe.encode bytes) = .ok bytes ∧
    ascii85.roundTrips bytes = .ok true ∧ headerSafe.roundTrips bytes = .ok true := by
  have hplain : Ascii85.decode (Ascii85.encode bytes) = .ok bytes :=
    Ascii85.decode_eq_ok_iff.mpr (Ascii85.denotes_encode bytes)
  have hsafe := HeaderSafe.decode_headerSafe_text bytes
  exact ⟨HeaderSafe.escape_encode bytes, HeaderSafe.isTokenChar_of_mem_encode bytes, hsafe,
    roundTrips_eq_true rfl hplain, roundTrips_eq_true rfl hsafe⟩

/-- The text of this byte begins with a quotation mark, which is escaped. -/
theorem headerSafe_token_roundTrips_of_quote :
    '~' ∈ HeaderSafe.encode [5] ∧ HeaderSafe.IsTokenChar '~' ∧
    headerSafe.roundTrips [5] = .ok true := by
  have hmem : '~' ∈ HeaderSafe.encode [5] := by decide
  obtain ⟨-, htoken, -, -, hsafe⟩ := headerSafe_token_roundTrips [5]
  exact ⟨hmem, htoken _ hmem, hsafe⟩

end TextKit.Codec
