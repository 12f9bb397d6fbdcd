import TextKit.Command.LineOrder
import TextKit.Command.Output

/-!
# What requests do

A procedure is what a request does to the world around it, step by step. It reads
its input as a whole. Before its output can be written the place for it is opened,
which takes away what was there. What is written before that goes to the standard
stream.

Each command takes its steps in its own order. Encoding and decoding give their
notices before the place is opened, sorting gives its notice last. Sorted lines are
written as they are found, one at a time. Only decoding ignores blanks around its
input; escaping and unescaping ignore line ends behind it.
-/

namespace TextKit.Command

/-- Steps of a run, up to its end. -/
inductive Procedure where
  /-- End well. -/
  | done
  /-- End with a failure. -/
  | fail (failure : Failure)
  /-- Take all of an input. -/
  | read (source : Location) (next : Bytes → Procedure)
  /-- Give a notice. -/
  | say (notice : String) (next : Procedure)
  /-- Open the place of the output. -/
  | create (target : Location) (next : Procedure)
  /-- Write to the output. What comes next is not worked out before. -/
  | write (content : Bytes) (next : Unit → Procedure)

namespace Procedure

/-- Go on with a result, or fail if there is none. -/
def attempt {α : Type} (result : Except Failure α) (next : α → Procedure) : Procedure :=
  match result with
  | .ok a => next a
  | .error failure => .fail failure

/-- Take all of an input, which is to be text. -/
def readText (source : Location) (next : Text → Procedure) : Procedure :=
  .read source fun input => attempt (textOf input) next

/-- Give a notice if notices are asked for. -/
def sayIf (verbose : Bool) (notice : String) (next : Procedure) : Procedure :=
  if verbose then .say notice next else next

/-- Write the last piece of output, and end well. -/
def finish (content : Bytes) : Procedure := .write content fun _ => .done

/-- Write bytes in an alphabet. -/
def encode (source target : Location) (alphabet : Alphabet) (json verbose : Bool) : Procedure :=
  let codec := alphabet.codec
  .read source fun input =>
  attempt ((codec.encode input).mapError .format) fun text =>
  sayIf verbose (encodeNotice codec.name input.length (Text.byteLength text)) <|
  .create target <|
  finish (lineBytes (if json then jsonSummary codec.name input.length text else text))

/-- Read bytes in an alphabet. -/
def decode (source target : Location) (alphabet : Alphabet) (verbose : Bool) : Procedure :=
  let codec := alphabet.codec
  readText source fun text =>
  attempt ((codec.decode (Text.trim text)).mapError .format) fun bytes =>
  sayIf verbose (decodeNotice codec.name (Text.byteLength (Text.trim text)) bytes.length) <|
  .create target <|
  finish bytes

/-- Change Ascii85 text by one of the two header-safe conversions. -/
def convert (conversion : Text → Except FormatError Text) (source : Location) : Procedure :=
  readText source fun text =>
  attempt ((conversion (Text.trimLineEnds text)).mapError .format) fun output =>
  finish (lineBytes output)

/-- Write up to `limit` of the lines that a sorted stream has left, and go on with how
many have been written. -/
def writeLines (next : Nat → Procedure) (written : Nat) :
    (limit : Nat) → Sorting.Sorted Text → Procedure
  | 0, _ => next written
  | limit + 1, stream =>
    match stream.next with
    | (none, _) => next written
    | (some line, stream) =>
      .write (lineBytes line) fun _ => writeLines next (written + 1) limit stream

/-- Sort lines. The pivots are chosen by `entropy` unless a seed is given. -/
def sort (entropy : UInt64) (source : Location) (keys : List SortKey) (delimiter : Option Char)
    (head seed : Option UInt64) (verbose : Bool) : Procedure :=
  readText source fun text =>
  let lines := Text.lines text
  let sequence := lineSequence lines keys delimiter seed
  .create .standard <|
  let stream := sequence.start entropy
  let limit := (head.map UInt64.toNat).getD (stream.length + 1)
  writeLines (fun written => sayIf verbose (sortNotice written lines.length keys) .done) 0 limit
    stream

end Procedure

/-- What a request does. -/
def Request.procedure (entropy : UInt64) : Request → Procedure
  | showVersion => .finish (lineBytes versionLine)
  | showHelp => .finish (Utf8.encode overview)
  | completions _ => .finish (Utf8.encode commandWords)
  | encode source target alphabet json verbose => .encode source target alphabet json verbose
  | decode source target alphabet verbose => .decode source target alphabet verbose
  | escape source => .convert HeaderSafe.escape source
  | unescape source => .convert HeaderSafe.unescape source
  | sort source keys delimiter head seed verbose =>
    .sort entropy source keys delimiter head seed verbose

end TextKit.Command
