import TextKit.Command.SortKey
import TextKit.Text.Terminal

/-!
# Parameters and usage errors

The parameters of the commands with the names under which they are given, and the
mistakes that a command line can hold. Switches begin with a hyphen; those that
are flags stand alone, the others take a value. A message names a parameter as the
user would write it, with the name of its value in angle brackets.
-/

namespace TextKit.Command

/-- A switch without a value. -/
inductive Flag where
  | json
  | verbose
  | help
  deriving DecidableEq, Repr

/-- A switch with a value. -/
inductive Setting where
  | alphabet
  | output
  | key
  | delimiter
  | head
  | seed
  deriving DecidableEq, Repr

/-- A parameter that begins with a hyphen. -/
inductive Switch where
  | flag (f : Flag)
  | setting (s : Setting)
  deriving DecidableEq, Repr

namespace Switch

/-- The name after two hyphens. -/
def long : Switch → String
  | flag .json => "json"
  | flag .verbose => "verbose"
  | flag .help => "help"
  | setting .alphabet => "alphabet"
  | setting .output => "output"
  | setting .key => "key"
  | setting .delimiter => "delimiter"
  | setting .head => "head"
  | setting .seed => "seed"

/-- The letter after one hyphen, for a switch that has one. -/
def short? : Switch → Option Char
  | flag .json => some 'j'
  | flag .verbose => some 'v'
  | flag .help => some 'h'
  | setting .alphabet => some 'a'
  | setting .output => some 'o'
  | setting .key => some 'k'
  | setting .delimiter => some 't'
  | setting .head => none
  | setting .seed => none

end Switch

/-- The name of the value of a switch. -/
def Setting.valueName : Setting → String
  | alphabet => "ALPHABET"
  | output => "OUTPUT"
  | key => "KEYS"
  | delimiter => "DELIMITER"
  | head => "HEAD"
  | seed => "SEED"

/-- Anything that a usage error may point at. -/
inductive Parameter where
  | version
  | file
  | shell
  | flag (f : Flag)
  | setting (s : Setting)
  deriving DecidableEq, Repr

/-- How a message names a parameter. -/
def Parameter.label : Parameter → String
  | version => "--version"
  | file => "[FILE]"
  | shell => "<SHELL>"
  | flag f => "--" ++ (Switch.flag f).long
  | setting s => "--" ++ (Switch.setting s).long ++ " <" ++ s.valueName ++ ">"

/-- Why a value does not suit its parameter. -/
inductive ValueFault where
  /-- The value is not one of those that the parameter knows. -/
  | unknownChoice
  | emptyCharacter
  | manyCharacters
  | numeral (fault : Numeral.Fault)
  | key (fault : SortKey.Fault)
  deriving DecidableEq, Repr

/-- The reason that a message adds, if it adds one. -/
def ValueFault.reason? : ValueFault → Option String
  | unknownChoice => none
  | emptyCharacter => some "cannot parse char from empty string"
  | manyCharacters => some "too many characters in string"
  | numeral fault => some fault.message
  | key fault => some fault.message

/-- A mistake in a command line. -/
inductive UsageError where
  | noArguments
  | unknownCommand (word : String)
  | unexpectedArgument (word : String)
  /-- A parameter that is required has not been given. -/
  | missingParameter (parameter : Parameter)
  | missingValue (parameter : Parameter)
  | unneededValue (value : String) (parameter : Parameter)
  | invalidValue (value : String) (parameter : Parameter) (fault : ValueFault)
  | repeated (parameter : Parameter)
  deriving DecidableEq, Repr

/-- What the program says about itself. -/
def about : String := "OxiUtil - Ascii85 encoding and lazy stable sorting"

/-- A word of the command line as a message quotes it. -/
def quotedWord (word : String) : Text := '\'' :: Text.styled 33 word.toList ++ ['\'']

/-- The name of a parameter as a message quotes it. -/
def quotedLabel (parameter : Parameter) : Text :=
  '\'' :: Text.styled 1 parameter.label.toList ++ ['\'']

/-- The wording of a usage error, with styles. Without arguments the program
introduces itself. A reason is not set off, though it may repeat the value. -/
def UsageError.message : UsageError → Text
  | noArguments => about.toList
  | unknownCommand word => "error: unrecognized subcommand ".toList ++ quotedWord word
  | unexpectedArgument word =>
    "error: unexpected argument ".toList ++ quotedWord word ++ " found".toList
  | missingParameter parameter =>
    "error: the following required arguments were not provided:\n  ".toList ++
      Text.styled 32 parameter.label.toList
  | missingValue parameter =>
    "error: a value is required for ".toList ++ quotedLabel parameter ++
      " but none was supplied".toList
  | unneededValue value parameter =>
    "error: unexpected value ".toList ++ quotedWord value ++ " for ".toList ++
      quotedLabel parameter ++ " found; no more were expected".toList
  | invalidValue value parameter fault =>
    "error: invalid value ".toList ++ quotedWord value ++ " for ".toList ++
      quotedLabel parameter ++
      ((fault.reason?.map fun reason => ": ".toList ++ reason.toList).getD [])
  | repeated parameter =>
    "error: the argument ".toList ++ quotedLabel parameter ++
      " cannot be used multiple times".toList

/-- What follows the wording of a mistake. -/
def UsageError.advice : UsageError → Text
  | noArguments => ['\n']
  | _ => "\n\nFor more information, try '".toList ++ Text.styled 1 "--help".toList ++ "'.\n".toList

/-- The report of a usage error. It is not written for a terminal, so neither its
styles nor any command to a terminal among the arguments is part of it. -/
def UsageError.report (error : UsageError) : Text :=
  Text.visible (error.message ++ error.advice)

end TextKit.Command
