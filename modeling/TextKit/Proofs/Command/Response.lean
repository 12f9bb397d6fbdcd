import TextKit.Command.Session
import TextKit.Proofs.Command.Workspace
import TextKit.Proofs.Text.Utf8

/-!
# Steps and answers

The answer to a request is stated here as one value that depends on the whole of its input: where
the output goes, what it is, and the notices that go with it, or a failure. No run works with such
answers. But taking the steps of a request comes to the same as delivering the answer at once.

The steps have a shape from which this follows. Nothing is written before the place of the output
has been opened, and nothing that can fail comes after that. Notices before and after the opening
are kept apart, since those after it are not given if the place cannot be opened.
-/

namespace TextKit.Command

/-- The answer to a request. -/
structure Response where
  target : Location
  content : Bytes
  /-- What is said before the target is opened. -/
  opening : String := ""
  /-- What is said after the content has been written. -/
  closing : String := ""
  deriving DecidableEq, Repr

/-- Where a request takes its input, if it has one. -/
def Request.source? : Request → Option Location
  | showVersion | showHelp | completions _ => none
  | encode source .. | decode source .. | escape source | unescape source | sort source .. =>
    some source

/-- The input of a request. -/
def inputOf (w : Workspace) (stdin : Bytes) : Option Location → Except Failure Bytes
  | none => .ok []
  | some .standard => .ok stdin
  | some (.file path) => (w.read path).mapError .storage

/-- Write bytes in an alphabet. -/
def respondEncode (target : Location) (alphabet : Alphabet) (json verbose : Bool)
    (input : Bytes) : Except Failure Response := do
  let codec := alphabet.codec
  let text ← (codec.encode input).mapError .format
  let output := if json then jsonSummary codec.name input.length text else text
  return {
    target := target
    content := lineBytes output
    opening :=
      if verbose then encodeNotice codec.name input.length (Text.byteLength text) else "" }

/-- Read bytes in an alphabet. -/
def respondDecode (target : Location) (alphabet : Alphabet) (verbose : Bool)
    (input : Bytes) : Except Failure Response := do
  let codec := alphabet.codec
  let text := Text.trim (← textOf input)
  let bytes ← (codec.decode text).mapError .format
  return {
    target := target
    content := bytes
    opening :=
      if verbose then decodeNotice codec.name (Text.byteLength text) bytes.length else "" }

/-- Change Ascii85 text by one of the two header-safe conversions. -/
def respondConverted (convert : Text → Except FormatError Text) (input : Bytes) :
    Except Failure Response := do
  let text ← textOf input
  let output ← (convert (Text.trimLineEnds text)).mapError .format
  return { target := .standard, content := lineBytes output }

/-- Sort lines. The pivots are chosen by `entropy` unless a seed is given. -/
def respondSort (entropy : UInt64) (keys : List SortKey) (delimiter : Option Char)
    (head seed : Option UInt64) (verbose : Bool) (input : Bytes) : Except Failure Response := do
  let text ← textOf input
  let lines := Text.lines text
  let sorted := (lineSequence lines keys delimiter seed).start entropy
  let written := match head with
    | some n => (sorted.take n.toNat).1
    | none => sorted.drain.1
  return {
    target := .standard
    content := Utf8.encode (Text.unlines written)
    closing := if verbose then sortNotice written.length lines.length keys else "" }

/-- Answer a request, given its input. -/
def Request.respond (entropy : UInt64) (request : Request) (input : Bytes) :
    Except Failure Response :=
  match request with
  | showVersion => .ok { target := .standard, content := lineBytes versionLine }
  | showHelp => .ok { target := .standard, content := Utf8.encode overview }
  | completions _ => .ok { target := .standard, content := Utf8.encode commandWords }
  | encode _ target alphabet json verbose => respondEncode target alphabet json verbose input
  | decode _ target alphabet verbose => respondDecode target alphabet verbose input
  | escape _ => respondConverted HeaderSafe.escape input
  | unescape _ => respondConverted HeaderSafe.unescape input
  | sort _ keys delimiter head seed verbose =>
    respondSort entropy keys delimiter head seed verbose input

/-- Deliver a response at once. -/
def deliver (w : Workspace) (r : Response) : Outcome :=
  match r.target with
  | .standard => ⟨0, r.content, r.opening ++ r.closing, w⟩
  | .file path =>
    match w.create path with
    | .ok (place, _) => ⟨0, [], r.opening ++ r.closing, w.put place r.content⟩
    | .error fault => ⟨1, [], r.opening ++ failureReport (.storage fault), w⟩

/-- Deliver an answer, or report that there is none. -/
def conclude (w : Workspace) : Except Failure Response → Outcome
  | .ok response => deliver w response
  | .error failure => ⟨1, [], failureReport failure, w⟩

section Behind

/-- The outcome of a run before which something has been said. -/
def Outcome.behind (said : String) (o : Outcome) : Outcome := { o with stderr := said ++ o.stderr }

@[simp] theorem Outcome.behind_empty (o : Outcome) : o.behind "" = o := by
  rw [behind, String.empty_append]

theorem deliver_opening (w : Workspace) (said : String) (r : Response) :
    deliver w { r with opening := said ++ r.opening } = (deliver w r).behind said := by
  rw [deliver, deliver]
  cases r.target with
  | standard => simp [Outcome.behind, String.append_assoc]
  | file path =>
      dsimp only
      cases w.create path <;> simp [Outcome.behind, String.append_assoc]

end Behind

section Holding

/-- The console with its output opened and some content written to it. -/
def Console.holding (c : Console) (sink : Sink) (held : Bytes) : Console :=
  match sink with
  | .standard => { c with stdout := held.toArray, sink := .standard }
  | .file place => { c with workspace := c.workspace.put place held, sink := .file place }

variable (c : Console) (sink : Sink) (held content : Bytes) (notice : String)

theorem Console.write_holding :
    (c.holding sink held).write content = c.holding sink (held ++ content) := by
  cases sink with
  | standard => simp [write, holding]
  | file place => simp [write, holding, Workspace.append_put]

theorem Console.say_holding :
    (c.holding sink held).say notice = (c.say notice).holding sink held := by
  cases sink <;> rfl

end Holding

theorem encode_unlines_cons (line : Text) (ls : List Text) :
    Utf8.encode (Text.unlines (line :: ls)) = lineBytes line ++ Utf8.encode (Text.unlines ls) := by
  have hunlines : Text.unlines (line :: ls) = (line ++ ['\n']) ++ Text.unlines ls := rfl
  rw [hunlines, Utf8.encode_append, lineBytes]

namespace Procedure

/-- All that is left to do is to write the content, and to give the notice. Nothing of it can
fail. -/
inductive Writes : Procedure → Bytes → String → Prop where
  | done : Writes .done [] ""
  | say {notice closing : String} {next : Procedure} {content : Bytes}
      (h : Writes next content closing) : Writes (.say notice next) content (notice ++ closing)
  | write {piece content : Bytes} {next : Unit → Procedure} {closing : String}
      (h : Writes (next ()) content closing) : Writes (.write piece next) (piece ++ content) closing

/-- Once the input has been read, the answer is what the steps amount to. There is a failure before
anything else is done, or the place of the output is opened before anything is written. -/
inductive Responds : Procedure → Except Failure Response → Prop where
  | fail (failure : Failure) : Responds (.fail failure) (.error failure)
  | say {notice : String} {next : Procedure} {response : Response}
      (h : Responds next (.ok response)) :
      Responds (.say notice next) (.ok { response with opening := notice ++ response.opening })
  | create {target : Location} {next : Procedure} {content : Bytes} {closing : String}
      (h : Writes next content closing) :
      Responds (.create target next) (.ok { target, content, closing })
  /-- The standard stream is open from the start. -/
  | print {p : Procedure} {content : Bytes} {closing : String} (h : Writes p content closing) :
      Responds p (.ok { target := .standard, content, closing })

section Run

variable {p : Procedure} {content : Bytes} {closing : String}

/-- Writing steps end well, and add to what is held. -/
theorem Writes.run_holding (h : p.Writes content closing) (c : Console) (sink : Sink)
    (held : Bytes) :
    p.run (c.holding sink held) = ((c.say closing).holding sink (held ++ content)).outcome 0 := by
  induction h generalizing c held with
  | done => simp [run, Console.say]
  | say h ih =>
      rw [run, Console.say_holding, ih, Console.say, Console.say, Console.say, String.append_assoc]
  | write h ih => rw [run, Console.write_holding, ih, List.append_assoc]

/-- Writing steps leave the content on the standard stream if no other place has been opened. -/
theorem Writes.run_standard (h : p.Writes content closing) (w : Workspace) (stdin : Bytes)
    (said : String) :
    p.run { workspace := w, stdin := stdin, stderr := said } =
      ⟨0, content, said ++ closing, w⟩ := by
  have hrun := h.run_holding { workspace := w, stdin := stdin, stderr := said } .standard []
  rw [List.nil_append] at hrun
  exact hrun

/-- Writing steps leave the content in the file that has been opened. -/
theorem Writes.run_file (h : p.Writes content closing) {w w' : Workspace} {path : String}
    {place : Place} (hcreate : w.create path = .ok (place, w')) (stdin : Bytes) (said : String) :
    p.run { workspace := w', stdin := stdin, stderr := said, sink := .file place } =
      ⟨0, [], said ++ closing, w.put place content⟩ := by
  have hrun := h.run_holding { workspace := w, stdin := stdin, stderr := said } (.file place) []
  rw [List.nil_append] at hrun
  rw [Workspace.eq_put_of_create hcreate]
  exact hrun

/-- Opening a place and writing to it is delivering. -/
theorem Writes.run_create (h : p.Writes content closing) (target : Location) (w : Workspace)
    (stdin : Bytes) (said : String) :
    (Procedure.create target p).run { workspace := w, stdin := stdin, stderr := said } =
      (deliver w { target, content, closing }).behind said := by
  rw [run]
  cases target with
  | standard => exact h.run_standard w stdin said
  | file path =>
      rw [deliver]
      dsimp only [Console.create]
      cases hcreate : w.create path with
      | error fault => rfl
      | ok opened => exact h.run_file hcreate stdin said

/-- Steps that amount to an answer come to the same as delivering it. -/
theorem Responds.run {result : Except Failure Response} (h : p.Responds result) (w : Workspace)
    (stdin : Bytes) (said : String) :
    p.run { workspace := w, stdin := stdin, stderr := said } =
      (conclude w result).behind said := by
  induction h generalizing said with
  | fail failure => rfl
  | @say notice next response h ih =>
      rw [Procedure.run, Console.say, ih, conclude, conclude, deliver_opening]
      simp only [Outcome.behind, String.append_assoc]
  | create h => exact h.run_create _ w stdin said
  | print h => exact h.run_standard w stdin said

end Run

section Steps

variable {p : Procedure} {content : Bytes} {closing : String}

theorem Responds.attempt {α : Type} {result : Except Failure α} {next : α → Procedure}
    {answer : α → Except Failure Response} (h : ∀ a, (next a).Responds (answer a)) :
    (Procedure.attempt result next).Responds (result >>= answer) := by
  cases result with
  | error failure => exact .fail failure
  | ok a => exact h a

theorem Responds.sayIf {target : Location} (h : p.Responds (.ok { target, content, closing }))
    (verbose : Bool) (notice : String) :
    (Procedure.sayIf verbose notice p).Responds
      (.ok { target, content, closing, opening := if verbose then notice else "" }) := by
  cases verbose with
  | false => exact h
  | true =>
      have hopening : notice ++ "" = notice := String.append_empty
      have hsay : (Procedure.say notice p).Responds
        (.ok { target, content, closing, opening := notice ++ "" }) := .say h
      rwa [hopening] at hsay

theorem Writes.finish (content : Bytes) : (Procedure.finish content).Writes content "" := by
  have hwrites : (Procedure.finish content).Writes (content ++ []) "" := .write .done
  rwa [List.append_nil] at hwrites

theorem Writes.sayIf_done (verbose : Bool) (notice : String) :
    (Procedure.sayIf verbose notice .done).Writes [] (if verbose then notice else "") := by
  cases verbose with
  | false => exact .done
  | true =>
      have hsay : (Procedure.say notice .done).Writes [] (notice ++ "") := .say .done
      rwa [String.append_empty] at hsay

/-- Lines that are written as they are found come to the same as all of them at once. The
induction is on how many may be written; those that have been taken are only counted. -/
theorem writes_writeLines {next : Nat → Procedure} {closing : Nat → String}
    (hnext : ∀ k, (next k).Writes [] (closing k)) (limit : Nat) (taken : Array Text)
    (stream : Sorting.Sorted Text) :
    ∃ more, (Sorting.Sorted.takeOnto taken limit stream).1 = taken.toList ++ more ∧
      (writeLines next taken.size limit stream).Writes (Utf8.encode (Text.unlines more))
        (closing (taken.size + more.length)) := by
  induction limit generalizing taken stream with
  | zero => exact ⟨[], (List.append_nil _).symm, hnext taken.size⟩
  | succ limit ih =>
      rw [Sorting.Sorted.takeOnto, writeLines]
      obtain ⟨line?, rest⟩ := stream.next
      cases line? with
      | none => exact ⟨[], (List.append_nil _).symm, hnext taken.size⟩
      | some line =>
          obtain ⟨more, htaken, hwrites⟩ := ih (taken.push line) rest
          have hcount : taken.size + 1 + more.length = taken.size + (line :: more).length := by
            rw [List.length_cons]
            omega
          rw [Array.size_push, hcount] at hwrites
          refine ⟨line :: more, by simpa using htaken, ?_⟩
          rw [encode_unlines_cons]
          exact .write hwrites

/-- The same for lines taken from the front of a stream. -/
theorem writes_writeLines_take {next : Nat → Procedure} {closing : Nat → String}
    (hnext : ∀ k, (next k).Writes [] (closing k)) (limit : Nat) (stream : Sorting.Sorted Text) :
    (writeLines next 0 limit stream).Writes (Utf8.encode (Text.unlines (stream.take limit).1))
      (closing (stream.take limit).1.length) := by
  obtain ⟨more, htaken, hwrites⟩ := writes_writeLines hnext limit #[] stream
  have hmore : (stream.take limit).1 = more := htaken
  rw [Array.size_empty, Nat.zero_add] at hwrites
  rw [hmore]
  exact hwrites

end Steps

/-- Steps that take an input as a whole, if there is one, and then amount to an answer. -/
inductive Realizes : Procedure → Option Location → (Bytes → Except Failure Response) → Prop where
  | alone {p : Procedure} {respond : Bytes → Except Failure Response}
      (h : p.Responds (respond [])) : Realizes p none respond
  | reading {source : Location} {next : Bytes → Procedure}
      {respond : Bytes → Except Failure Response}
      (h : ∀ input, (next input).Responds (respond input)) :
      Realizes (.read source next) (some source) respond

theorem Realizes.run {p : Procedure} {source? : Option Location}
    {respond : Bytes → Except Failure Response} (h : p.Realizes source? respond) (w : Workspace)
    (stdin : Bytes) : p.run { workspace := w, stdin := stdin } =
      conclude w (inputOf w stdin source? >>= respond) := by
  have hresult : ∀ {q : Procedure} {result}, q.Responds result →
      q.run { workspace := w, stdin := stdin } = conclude w result := by
    intro q result hq
    rw [hq.run w stdin "", Outcome.behind_empty]
  cases h with
  | alone h => exact hresult h
  | @reading source next respond h =>
      rw [Procedure.run]
      cases source with
      | standard => exact hresult (h stdin)
      | file path =>
          dsimp only [Console.input, inputOf]
          cases (w.read path).mapError Failure.storage with
          | error failure => rfl
          | ok input => exact hresult (h input)

section Commands

variable (source target : Location) (alphabet : Alphabet) (json verbose : Bool)

theorem realizes_encode : (encode source target alphabet json verbose).Realizes (some source)
    (respondEncode target alphabet json verbose) :=
  .reading fun _ => .attempt fun _ => (Responds.create (.finish _)).sayIf verbose _

theorem realizes_decode : (decode source target alphabet verbose).Realizes (some source)
    (respondDecode target alphabet verbose) :=
  .reading fun _ => .attempt fun _ => .attempt fun _ =>
    (Responds.create (.finish _)).sayIf verbose _

theorem realizes_convert (conversion : Text → Except FormatError Text) :
    (convert conversion source).Realizes (some source) (respondConverted conversion) :=
  .reading fun _ => .attempt fun _ => .attempt fun _ => .print (.finish _)

theorem realizes_sort (entropy : UInt64) (keys : List SortKey) (delimiter : Option Char)
    (head seed : Option UInt64) :
    (sort entropy source keys delimiter head seed verbose).Realizes (some source)
      (respondSort entropy keys delimiter head seed verbose) := by
  refine .reading fun _ => .attempt fun text => ?_
  have hnotice : ∀ written, _ := fun written =>
    Writes.sayIf_done verbose (sortNotice written (Text.lines text).length keys)
  have hwrites := writes_writeLines_take hnotice
  -- The steps and the answer find the limit by the same cases.
  cases head with
  | none => exact .create (hwrites _ _)
  | some n => exact .create (hwrites _ _)

end Commands

end Procedure

/-- What a request does comes to the same as delivering the answer to it. -/
theorem perform_eq_conclude (w : Workspace) (stdin : Bytes) (entropy : UInt64)
    (request : Request) : perform w stdin entropy request =
      conclude w (inputOf w stdin request.source? >>= request.respond entropy) := by
  have hrealizes :
      (request.procedure entropy).Realizes request.source? (request.respond entropy) := by
    cases request with
    | showVersion | showHelp | completions shell => exact .alone (.print (.finish _))
    | encode source target alphabet json verbose =>
        exact Procedure.realizes_encode source target alphabet json verbose
    | decode source target alphabet verbose =>
        exact Procedure.realizes_decode source target alphabet verbose
    | escape source | unescape source => exact Procedure.realizes_convert source _
    | sort source keys delimiter head seed verbose =>
        exact Procedure.realizes_sort source verbose entropy keys delimiter head seed
  exact hrealizes.run w stdin

end TextKit.Command
