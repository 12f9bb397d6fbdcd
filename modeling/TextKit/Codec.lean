import TextKit.HeaderSafe

/-!
# Codecs

A codec is a named way to write bytes as text and to read them back. Both
directions work in a monad that can fail; the codecs of this library only fail
with a `FormatError`, while others may also keep a record of their use.
-/

namespace TextKit

/-- A way to write bytes as text and back. -/
structure Codec (m : Type → Type) where
  /-- A short name in lower case. -/
  name : String
  encode : Bytes → m Text
  decode : Text → m Bytes

namespace Codec

/-- Whether bytes come back unchanged. What is read is exactly what was written. -/
def roundTrips {m : Type → Type} [Monad m] (codec : Codec m) (bytes : Bytes) : m Bool := do
  let text ← codec.encode bytes
  let back ← codec.decode text
  return back == bytes

/-- Plain Ascii85. -/
def ascii85 : Codec (Except FormatError) where
  name := "ascii85"
  encode bytes := .ok (Ascii85.encode bytes)
  decode := Ascii85.decode

/-- Ascii85 in its header-safe form. -/
def headerSafe : Codec (Except FormatError) where
  name := "ascii85-http-header"
  encode bytes := .ok (HeaderSafe.encode bytes)
  decode := HeaderSafe.decode

end Codec
end TextKit
