import TextKit.Command.Request

/-!
# Reading command lines

Arguments are read from left to right. A long switch may have its value attached
after an equals sign. Short switches may be joined, and what follows the letter of
one that takes a value is its value, without an equals sign in front. A value in an
argument of its own must not look like a switch; a lone hyphen does not. After two
hyphens nothing is a switch.

A value or other word is held back until the next parameter is recognized or the
arguments end, and only then checked. So an unknown switch is reported before a bad
value that stands in front of it, and a second use of a parameter before its value.
Once help is asked for, what follows is not read.
-/

namespace TextKit.Command

/-- What has been read but not yet checked. -/
inductive Held where
  | nothing
  /-- A setting whose value should be the next argument. -/
  | awaiting (s : Setting)
  | value (s : Setting) (text : String)
  | file (name : String)
  | shell (name : String)
  deriving DecidableEq, Repr

/-- A command line that has been read in part. -/
structure Reading where
  settings : Settings := {}
  held : Held := .nothing
  /-- Whether the word beside the switches has been read. -/
  named : Bool := false
  /-- Whether help has been asked for. -/
  helped : Bool := false

namespace Reading

/-- Check a text that is not empty. -/
def requireText (parameter : Parameter) (text : String) : Except UsageError String :=
  if text.isEmpty then .error (.missingValue parameter) else .ok text

/-- Check a text that is one character. -/
def requireCharacter (text : String) : Except ValueFault Char :=
  match text.toList with
  | [] => .error .emptyCharacter
  | [c] => .ok c
  | _ => .error .manyCharacters

/-- Turn a fault of a value into a usage error. -/
def checked {α : Type} (s : Setting) (text : String) (result : Except ValueFault α) :
    Except UsageError α :=
  result.mapError fun fault => .invalidValue text (.setting s) fault

/-- Fail if a parameter has been given before. -/
def requireFirst (given : Bool) (parameter : Parameter) : Except UsageError Unit :=
  if given then .error (.repeated parameter) else .ok ()

/-- Check the value of a setting and enter it. -/
def enter (settings : Settings) (s : Setting) (text : String) : Except UsageError Settings := do
  match s with
  | .alphabet =>
    requireFirst settings.alphabet.isSome (.setting s)
    let text ← requireText (.setting s) text
    match Alphabet.ofName? text with
    | some alphabet => return { settings with alphabet := some alphabet }
    | none => throw (.invalidValue text (.setting s) .unknownChoice)
  | .output =>
    requireFirst settings.output.isSome (.setting s)
    return { settings with output := some (← requireText (.setting s) text) }
  | .key =>
    let key ← checked s text ((SortKey.parse text.toList).mapError .key)
    return { settings with keys := settings.keys ++ [key] }
  | .delimiter =>
    requireFirst settings.delimiter.isSome (.setting s)
    return { settings with delimiter := some (← checked s text (requireCharacter text)) }
  | .head =>
    requireFirst settings.head.isSome (.setting s)
    let n ← checked s text ((Numeral.read text.toList).mapError .numeral)
    return { settings with head := some n }
  | .seed =>
    requireFirst settings.seed.isSome (.setting s)
    let n ← checked s text ((Numeral.read text.toList).mapError .numeral)
    return { settings with seed := some n }

/-- Check what is held back. -/
def settle (r : Reading) : Except UsageError Reading :=
  match r.held with
  | .nothing => .ok r
  | .awaiting s => .error (.missingValue (.setting s))
  | .value s text => do
    return { r with settings := ← enter r.settings s text, held := .nothing }
  | .file name => do
    let name ← requireText .file name
    return { r with settings := { r.settings with file := some name }, held := .nothing }
  | .shell name => do
    let name ← requireText .shell name
    match Shell.ofName? name with
    | some shell =>
      return { r with settings := { r.settings with shell := some shell }, held := .nothing }
    | none => throw (.invalidValue name .shell .unknownChoice)

/-- Take a setting with its value attached. -/
def attach (r : Reading) (s : Setting) (text : String) : Except UsageError Reading := do
  let r ← r.settle
  return { r with settings := ← enter r.settings s text }

/-- Take a setting whose value is still to come. -/
def await (r : Reading) (s : Setting) : Except UsageError Reading := do
  let r ← r.settle
  return { r with held := .awaiting s }

/-- Take a flag. -/
def raise (r : Reading) (f : Flag) : Except UsageError Reading := do
  let r ← r.settle
  match f with
  | .json =>
    requireFirst r.settings.json (.flag f)
    return { r with settings := { r.settings with json := true } }
  | .verbose =>
    requireFirst r.settings.verbose (.flag f)
    return { r with settings := { r.settings with verbose := true } }
  | .help => return { r with helped := true }

/-- Take the word beside the switches, of which there may be one. -/
def name (verb : Verb) (r : Reading) (word : String) : Except UsageError Reading :=
  if r.named then .error (.unexpectedArgument word)
  else do
    let r ← r.settle
    let held := if verb = .completions then .shell word else .file word
    return { r with held := held, named := true }

/-- Take an argument that is no switch. -/
def word (verb : Verb) (r : Reading) (text : String) : Except UsageError Reading :=
  match r.held with
  | .awaiting s => .ok { r with held := .value s text }
  | _ => r.name verb text

end Reading

/-- Divide what follows two hyphens into a name and the value after the first
equals sign. -/
def splitLong (body : Text) : String × Option String :=
  let name := String.ofList (body.takeWhile (· ≠ '='))
  match body.dropWhile (· ≠ '=') with
  | [] => (name, none)
  | _ :: value => (name, some (String.ofList value))

namespace Verb

/-- Take a long switch. -/
def readLong (verb : Verb) (body : Text) (r : Reading) : Except UsageError Reading :=
  let (name, value?) := splitLong body
  match verb.long? name, value? with
  | none, _ => .error (.unexpectedArgument ("--" ++ name))
  | some (.flag f), none => r.raise f
  | some (.flag f), some value => .error (.unneededValue value (.flag f))
  | some (.setting s), none => r.await s
  | some (.setting s), some value => r.attach s value

/-- Take short switches that are joined. -/
def readShort (verb : Verb) : Text → Reading → Except UsageError Reading
  | [], r => .ok r
  | letter :: rest, r =>
    match verb.short? letter, rest with
    | none, _ => .error (.unexpectedArgument (String.ofList ['-', letter]))
    | some (.flag .help), _ => r.raise .help
    | some (.flag f), _ => do verb.readShort rest (← r.raise f)
    | some (.setting s), [] => r.await s
    | some (.setting s), '=' :: value => r.attach s (String.ofList value)
    | some (.setting s), value => r.attach s (String.ofList value)

/-- Read the arguments of a command. `literal` says whether two hyphens have been
read. -/
def readArguments (verb : Verb) : (literal : Bool) → List String → Reading →
    Except UsageError Request
  | _, [], r => if r.helped then .ok .showHelp else do verb.request (← r.settle).settings
  | literal, arg :: rest, r =>
    if r.helped then .ok .showHelp
    else if literal then do verb.readArguments true rest (← r.name verb arg)
    else
      match arg.toList with
      | ['-', '-'] => verb.readArguments true rest r
      | '-' :: '-' :: body => do verb.readArguments false rest (← verb.readLong body r)
      | '-' :: c :: more => do verb.readArguments false rest (← verb.readShort (c :: more) r)
      | _ => do verb.readArguments false rest (← r.word verb arg)

end Verb

namespace Request

/-- Read what follows the word that asks for help. It may name one command. -/
def parseHelp : List String → Except UsageError Request
  | [] => .ok .showHelp
  | word :: rest =>
    if Verb.isKnown word then
      match rest with
      | [] => .ok .showHelp
      | further :: _ => .error (.unknownCommand further)
    else .error (.unknownCommand word)

/-- Read a whole command line. `literal` says whether two hyphens have been read;
a command must come before them. -/
def parseFrom : (literal : Bool) → List String → Except UsageError Request
  | _, [] => .error .noArguments
  | true, arg :: _ =>
    .error (if Verb.isKnown arg then .unexpectedArgument arg else .unknownCommand arg)
  | false, arg :: rest =>
    match Verb.ofName? arg with
    | some verb => verb.readArguments false rest {}
    | none =>
      match arg.toList with
      | ['-', '-'] => parseFrom true rest
      | '-' :: '-' :: body =>
        match splitLong body with
        | ("version", none) => .ok .showVersion
        | ("version", some value) => .error (.unneededValue value .version)
        | ("help", none) => .ok .showHelp
        | ("help", some value) => .error (.unneededValue value (.flag .help))
        | (name, _) => .error (.unexpectedArgument ("--" ++ name))
      | '-' :: letter :: _ =>
        if letter = 'V' then .ok .showVersion
        else if letter = 'h' then .ok .showHelp
        else .error (.unexpectedArgument (String.ofList ['-', letter]))
      | _ => if arg = Verb.helpWord then parseHelp rest else .error (.unknownCommand arg)

/-- The request of a command line, or the first mistake in it. -/
def parse (args : List String) : Except UsageError Request := parseFrom false args

end Request
end TextKit.Command
