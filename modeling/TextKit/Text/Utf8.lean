import TextKit.Text.Basic

/-!
# The UTF-8 form of a text

Encoding is character by character. Decoding reads one byte at a time and
remembers at most one unfinished character, so it stops at the first byte that
no well-formed text can have in that place. The leading byte fixes how many
continuation bytes follow and narrows the range of the first of them; this
excludes overlong forms, surrogates, and values past the last scalar value.

A fault names the byte where the unfinished character began. It also says how
many of its bytes were acceptable, or that the input ended inside it.
-/

namespace TextKit.Utf8

/-- The bytes of a text. -/
def encode (t : Text) : Bytes := t.flatMap String.utf8EncodeChar

@[simp] theorem encode_nil : encode [] = [] := rfl

@[simp] theorem encode_cons (c : Char) (t : Text) :
    encode (c :: t) = String.utf8EncodeChar c ++ encode t := rfl

@[simp] theorem encode_append (s t : Text) : encode (s ++ t) = encode s ++ encode t := by
  simp [encode]

/-- Why a byte string is no text. -/
inductive Fault where
  /-- A byte does not continue the character begun at `index`, of which the
  first `length` bytes are to be discarded. -/
  | invalid (length index : Nat)
  /-- The input ends inside the character begun at `index`. -/
  | incomplete (index : Nat)
  deriving DecidableEq, Repr

/-- The wording of a fault. -/
def Fault.message : Fault → String
  | .invalid length index =>
    "invalid utf-8 sequence of " ++ toString length ++ " bytes from index " ++ toString index
  | .incomplete index => "incomplete utf-8 byte sequence from index " ++ toString index

/-- A character of which at least the leading byte has been read. -/
structure Unfinished where
  /-- Index of the leading byte. -/
  start : Nat
  /-- Number of bytes read. -/
  seen : Nat
  /-- Number of continuation bytes that must follow. -/
  missing : Nat
  /-- Least byte acceptable next. -/
  low : UInt8
  /-- Greatest byte acceptable next. -/
  high : UInt8
  /-- Value of the bits read so far. -/
  value : Nat
  deriving DecidableEq, Repr

/-- What a leading byte past the ASCII range announces, if it can lead at all. -/
def lead? (index : Nat) (b : UInt8) : Option Unfinished :=
  if 0xC2 ≤ b ∧ b ≤ 0xDF then some ⟨index, 1, 1, 0x80, 0xBF, b.toNat - 0xC0⟩
  else if b = 0xE0 then some ⟨index, 1, 2, 0xA0, 0xBF, 0⟩
  else if b = 0xED then some ⟨index, 1, 2, 0x80, 0x9F, 0xD⟩
  else if 0xE1 ≤ b ∧ b ≤ 0xEF then some ⟨index, 1, 2, 0x80, 0xBF, b.toNat - 0xE0⟩
  else if b = 0xF0 then some ⟨index, 1, 3, 0x90, 0xBF, 0⟩
  else if 0xF1 ≤ b ∧ b ≤ 0xF3 then some ⟨index, 1, 3, 0x80, 0xBF, b.toNat - 0xF0⟩
  else if b = 0xF4 then some ⟨index, 1, 3, 0x80, 0x8F, 4⟩
  else none

/-- Append six bits. Past the first continuation byte the full range is open. -/
def Unfinished.extend (u : Unfinished) (b : UInt8) : Unfinished :=
  { start := u.start, seen := u.seen + 1, missing := u.missing - 1
    low := 0x80, high := 0xBF, value := u.value * 64 + (b.toNat - 0x80) }

/-- Read on from byte `index`, with `done` already read. -/
def decodeFrom (done : Array Char) (index : Nat) : Option Unfinished → Bytes → Except Fault Text
  | none, [] => .ok done.toList
  | some u, [] => .error (.incomplete u.start)
  | none, b :: bs =>
    if b < 0x80 then decodeFrom (done.push (Char.ofNat b.toNat)) (index + 1) none bs
    else match lead? index b with
      | none => .error (.invalid 1 index)
      | some u => decodeFrom done (index + 1) (some u) bs
  | some u, b :: bs =>
    if u.low ≤ b ∧ b ≤ u.high then
      let v := u.extend b
      if v.missing = 0 then decodeFrom (done.push (Char.ofNat v.value)) (index + 1) none bs
      else decodeFrom done (index + 1) (some v) bs
    else .error (.invalid u.seen u.start)

/-- The text with the given UTF-8 form, or the first fault. -/
def decode (bytes : Bytes) : Except Fault Text := decodeFrom #[] 0 none bytes

end TextKit.Utf8
