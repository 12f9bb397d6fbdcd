import TextKit.Codec
import TextKit.Command.Request
import TextKit.Command.Workspace
import TextKit.Number.Percentage
import TextKit.Text.JsonString
import TextKit.Text.Utf8

/-!
# What requests print

Outputs and notices as texts, and the failures that are reported in their place.
All text outputs end in a line feed, decoded bytes are written as they are.
-/

namespace TextKit.Command

/-- Why a request cannot be answered. -/
inductive Failure where
  | format (error : FormatError)
  /-- The input is to be text and is not. -/
  | notText (fault : Utf8.Fault)
  | storage (fault : StorageFault)
  deriving DecidableEq, Repr

/-- The wording of a failure. -/
def Failure.message : Failure → String
  | format error => error.message
  | notText fault => fault.message
  | storage fault => fault.message

/-- The codec of an alphabet. -/
def Alphabet.codec : Alphabet → Codec (Except FormatError)
  | ascii85 => .ascii85
  | httpHeader => .headerSafe

/-- The input as text. -/
def textOf (input : Bytes) : Except Failure Text := (Utf8.decode input).mapError .notText

/-- A text as output, with a line feed behind it. -/
def lineBytes (t : Text) : Bytes := Utf8.encode (t ++ ['\n'])

/-- The summary of an encoding as a JSON object. -/
def jsonSummary (alphabet : String) (inputBytes : Nat) (output : Text) : Text :=
  "\x7b\n".toList ++
    "  \"alphabet\": ".toList ++ Text.jsonString alphabet.toList ++ ",\n".toList ++
    "  \"input_bytes\": ".toList ++ Nat.toDigits 10 inputBytes ++ ",\n".toList ++
    "  \"output_chars\": ".toList ++ Nat.toDigits 10 (Text.byteLength output) ++ ",\n".toList ++
    "  \"output\": ".toList ++ Text.jsonString output ++ "\n".toList ++
    "\x7d".toList

/-- The notice of an encoding: sizes, and the size of the output in percent. -/
def encodeNotice (alphabet : String) (input output : Nat) : String :=
  alphabet ++ ": " ++ toString input ++ " bytes -> " ++ toString output ++ " chars (" ++
    showTenths (percentage output input) ++ "%)\n"

/-- The notice of a decoding. -/
def decodeNotice (alphabet : String) (input output : Nat) : String :=
  alphabet ++ ": " ++ toString input ++ " chars -> " ++ toString output ++ " bytes\n"

/-- The notice of a sort. -/
def sortNotice (written total : Nat) (keys : List SortKey) : String :=
  "sorted " ++ toString written ++ " of " ++ toString total ++ " lines by [" ++
    ", ".intercalate (keys.map fun key => String.ofList key.print) ++ "]\n"

/-- What the program is called, and its version. -/
def versionLine : Text := "oxiutil 0.1.0".toList

/-- What the program can do, one command a line. It stands in for a full help text. -/
def overview : Text :=
  Text.unlines <|
    [about.toList, [], "Usage: oxiutil <COMMAND>".toList, [], "Commands:".toList] ++
      Verb.all.map fun verb =>
        "  ".toList ++ verb.name.toList.rightpad 13 ' ' ++ verb.purpose.toList

/-- The words with which a shell can complete the program's name, one a line. They stand
in for a completion script and are the same for every shell. -/
def commandWords : Text :=
  Text.unlines ((Verb.all.map (·.name.toList)) ++ [Verb.helpWord.toList])

end TextKit.Command
