import TextKit.Proofs.Command.Session
import TextKit.Proofs.HeaderSafe.Tokens
import TextKit.Proofs.Text.Utf8

/-!
# What a run gives is the answer to its request

A run depends on its arguments, on the standard input, on the files and on what seeds it. It asks
for something if the arguments are correct, the input is there and the place of the output can be
opened. Then nothing but the answer to the request decides on how the run ends: it gives the
answer, or it fails because there is none.

Answers are stated here request by request, without the notices that go with them. Encoding
answers every input. Decoding and the two conversions answer texts, each behind its own kind of
trimming, if the codec accepts what is left.
-/

namespace TextKit.Command

/-- The content is what a request gives for an input. -/
def Request.Answers (request : Request) (entropy : UInt64) (input content : Bytes) : Prop :=
  ∃ response, request.respond entropy input = .ok response ∧ response.content = content

/-- The place of an output can be opened. -/
def Workspace.Opens (w : Workspace) : Location → Prop
  | .standard => True
  | .file path => ∃ opened, w.create path = .ok opened

/-- All that a run of the program depends on. -/
structure Invocation where
  workspace : Workspace
  stdin : Bytes
  entropy : UInt64
  args : List String

namespace Invocation

/-- A run on standard input where there are no files. -/
def onStdin (stdin : Bytes) (args : List String) : Invocation := ⟨⟨[]⟩, stdin, 0, args⟩

/-- What the run leaves behind. -/
def outcome (i : Invocation) : Outcome := run i.workspace i.stdin i.entropy i.args

/-- The arguments make up a request, its input is there, and its output can be opened. -/
structure Asks (i : Invocation) (request : Request) (input : Bytes) : Prop where
  parse_eq : Request.parse i.args = .ok request
  input_eq : inputOf i.workspace i.stdin request.source? = .ok input
  opens : i.workspace.Opens request.target

/-- The run ends well, with the content at its target and all other files as they were. -/
def Gives (i : Invocation) (content : Bytes) (target : Location) : Prop :=
  i.outcome.status = 0 ∧ i.outcome.Delivered i.workspace content target

end Invocation

section Delivery

variable {w : Workspace} {response : Response} {i : Invocation} {request : Request}
variable {input content content' : Bytes} {target : Location}

theorem status_deliver (h : w.Opens response.target) : (deliver w response).status = 0 := by
  rw [deliver]
  cases htarget : response.target with
  | standard => rfl
  | file path =>
      rw [htarget] at h
      obtain ⟨opened, hcreate⟩ := h
      dsimp only
      rw [hcreate]

/-- What is delivered is complete, so it is no other content as well. -/
theorem Outcome.Delivered.unique {o : Outcome} (h : o.Delivered w content target)
    (h' : o.Delivered w content' target) : content = content' := by
  cases target with
  | standard => exact h.1.symm.trans h'.1
  | file path => exact Except.ok.inj (h.2.1.symm.trans h'.2.1)

namespace Invocation

/-- What has been given to a file is there for the next run. -/
theorem Gives.inputOf_eq {path : String} (h : i.Gives content (.file path)) (stdin : Bytes) :
    inputOf i.outcome.workspace stdin (some (.file path)) = .ok content := by
  rw [inputOf, h.2.2.1]
  rfl

theorem asks_onStdin {args : List String} (hparse : Request.parse args = .ok request)
    (hsource : request.source? = some .standard) (htarget : request.target = .standard)
    (stdin : Bytes) : (onStdin stdin args).Asks request stdin where
  parse_eq := hparse
  input_eq := by
    rw [hsource]
    rfl
  opens := by
    rw [htarget]
    trivial

theorem Asks.outcome_eq (h : i.Asks request input) :
    i.outcome = perform i.workspace i.stdin i.entropy request := by
  rw [outcome, run, h.parse_eq]

/-- The answer is delivered. -/
theorem Asks.gives_of_respond (h : i.Asks request input)
    (hresponse : request.respond i.entropy input = .ok response) :
    i.Gives response.content request.target := by
  have htarget := (respond_onStandard hresponse).1
  rw [Gives, h.outcome_eq, perform_of_ok h.input_eq hresponse, ← htarget]
  obtain hwithheld | hgives := deliver_cases i.workspace response
  · exact absurd (status_deliver (htarget ▸ h.opens)) hwithheld.1
  · exact hgives

/-- Without an answer a run does not end well. -/
theorem Asks.exists_respond (h : i.Asks request input) (hstatus : i.outcome.status = 0) :
    ∃ response, request.respond i.entropy input = .ok response := by
  rw [h.outcome_eq] at hstatus
  obtain hwithheld | ⟨input', response, hinput', hresponse⟩ :=
    perform_cases i.workspace i.stdin i.entropy request
  · exact absurd hstatus hwithheld.1
  · obtain rfl := Except.ok.inj (h.input_eq.symm.trans hinput')
    exact ⟨response, hresponse⟩

/-- A run gives the answer to what it asks for, and nothing else. -/
theorem Asks.gives_iff (h : i.Asks request input) :
    i.Gives content request.target ↔ request.Answers i.entropy input content := by
  constructor
  · rintro ⟨hstatus, hdelivered⟩
    obtain ⟨response, hresponse⟩ := h.exists_respond hstatus
    have hanswer := h.gives_of_respond hresponse
    exact ⟨response, hresponse, hanswer.2.unique hdelivered⟩
  · rintro ⟨response, hresponse, rfl⟩
    exact h.gives_of_respond hresponse

/-- A run that ends well gives something. -/
theorem Asks.exists_gives (h : i.Asks request input) (hstatus : i.outcome.status = 0) :
    ∃ content, i.Gives content request.target := by
  obtain ⟨response, hresponse⟩ := h.exists_respond hstatus
  exact ⟨response.content, h.gives_of_respond hresponse⟩

end Invocation

end Delivery

/-- The text of bytes in an alphabet. -/
def Alphabet.write : Alphabet → Bytes → Text
  | ascii85 => Ascii85.encode
  | httpHeader => HeaderSafe.encode

section Codecs

variable (alphabet : Alphabet) (bytes : Bytes)

theorem Alphabet.codec_encode : alphabet.codec.encode bytes = .ok (alphabet.write bytes) := by
  cases alphabet <;> rfl

theorem Alphabet.codec_decode_write :
    alphabet.codec.decode (alphabet.write bytes) = .ok bytes := by
  cases alphabet with
  | ascii85 => exact Ascii85.decode_eq_ok_iff.mpr (Ascii85.denotes_encode bytes)
  | httpHeader => exact HeaderSafe.decode_headerSafe_text bytes

/-- All that is written is visible. -/
theorem Alphabet.visible_of_mem_write :
    ∀ c ∈ alphabet.write bytes, 33 ≤ c.toNat ∧ c.toNat ≤ 126 := by
  intro c hc
  cases alphabet with
  | ascii85 =>
      obtain hdigit | rfl := (Ascii85.denotes_encode bytes).inAlphabet c hc
      · obtain ⟨hlow, hhigh⟩ := Ascii85.isDigit_iff.mp hdigit
        exact ⟨hlow, Nat.le_trans hhigh (by decide)⟩
      · decide
  | httpHeader =>
      obtain ⟨hlow, hhigh, -⟩ := HeaderSafe.isTokenChar_of_mem_encode bytes c hc
      exact ⟨hlow, hhigh⟩

end Codecs

theorem textOf_encode (text : Text) : textOf (Utf8.encode text) = .ok text := by
  rw [textOf, Utf8.decode_utf8_encode]
  rfl

namespace Request

variable {entropy : UInt64} {source target : Location} {alphabet : Alphabet} {verbose : Bool}
variable {input content : Bytes} {text : Text}

theorem answers_encode :
    (encode source target alphabet false verbose).Answers entropy input content ↔
      lineBytes (alphabet.write input) = content := by
  rw [Answers, respond, respondEncode]
  dsimp only
  rw [alphabet.codec_encode]
  exact ⟨by rintro ⟨-, ⟨⟩, rfl⟩; rfl, fun h => ⟨_, rfl, h⟩⟩

theorem answers_decode :
    (decode source target alphabet verbose).Answers entropy (Utf8.encode text) content ↔
      alphabet.codec.decode (Text.trim text) = .ok content := by
  rw [Answers, respond, respondDecode, textOf_encode]
  constructor
  · rintro ⟨response, hresponse, rfl⟩
    obtain ⟨_, htext, hresponse⟩ := bind_eq_ok_iff.mp hresponse
    cases htext
    obtain ⟨bytes, hbytes, hresponse⟩ := bind_eq_ok_iff.mp hresponse
    cases hresponse
    exact mapError_eq_ok_iff.mp hbytes
  · intro h
    refine ⟨_, bind_eq_ok_iff.mpr ⟨text, rfl, bind_eq_ok_iff.mpr ⟨content, ?_, rfl⟩⟩, rfl⟩
    exact mapError_eq_ok_iff.mpr h

/-- Both conversions take their text without the line ends behind it. -/
theorem answers_converted {convert : Text → Except FormatError Text} :
    (∃ response, respondConverted convert (Utf8.encode text) = .ok response ∧
        response.content = content) ↔
      ∃ output, convert (Text.trimLineEnds text) = .ok output ∧ lineBytes output = content := by
  rw [respondConverted, textOf_encode]
  constructor
  · rintro ⟨response, hresponse, rfl⟩
    obtain ⟨_, htext, hresponse⟩ := bind_eq_ok_iff.mp hresponse
    cases htext
    obtain ⟨output, houtput, hresponse⟩ := bind_eq_ok_iff.mp hresponse
    cases hresponse
    exact ⟨output, mapError_eq_ok_iff.mp houtput, rfl⟩
  · rintro ⟨output, houtput, rfl⟩
    refine ⟨_, bind_eq_ok_iff.mpr ⟨text, rfl, bind_eq_ok_iff.mpr ⟨output, ?_, rfl⟩⟩, rfl⟩
    exact mapError_eq_ok_iff.mpr houtput

theorem answers_escape :
    (escape source).Answers entropy (Utf8.encode text) content ↔
      ∃ output, HeaderSafe.escape (Text.trimLineEnds text) = .ok output ∧
        lineBytes output = content :=
  answers_converted

theorem answers_unescape :
    (unescape source).Answers entropy (Utf8.encode text) content ↔
      ∃ output, HeaderSafe.unescape (Text.trimLineEnds text) = .ok output ∧
        lineBytes output = content :=
  answers_converted

end Request

end TextKit.Command
