import TextKit.Command.Usage

/-!
# Requests

A request is what a correct command line asks for. Each command has a name, some
have a one-letter name too, and each accepts certain switches and one word beside
them: an input file, which may be missing, or the name of a shell, which may not.
Settings are gathered under the names of the switches, and a request is made from
them once all arguments have been read.
-/

namespace TextKit.Command

/-- What a command does. -/
inductive Verb where
  | encode
  | decode
  | escape
  | unescape
  | sort
  | completions
  deriving DecidableEq, Repr

namespace Verb

/-- All commands. -/
def all : List Verb := [encode, decode, escape, unescape, sort, completions]

/-- The full name of a command. -/
def name : Verb → String
  | encode => "encode"
  | decode => "decode"
  | escape => "escape"
  | unescape => "unescape"
  | sort => "sort"
  | completions => "completions"

/-- The short name of a command that has one. -/
def alias? : Verb → Option String
  | encode => some "e"
  | decode => some "d"
  | sort => some "s"
  | escape | unescape | completions => none

/-- What a command is for. -/
def purpose : Verb → String
  | encode => "Encode binary data as Ascii85"
  | decode => "Decode Ascii85 text back to binary data"
  | escape => "Escape Ascii85 text for use in an HTTP header"
  | unescape => "Turn HTTP-header-escaped text back into Ascii85"
  | sort => "Sort lines of text (stable, lazy)"
  | completions => "Generate shell completion scripts"

/-- The command with a given name. -/
def ofName? (name : String) : Option Verb :=
  all.find? fun verb => verb.name == name || verb.alias? == some name

/-- The word that asks for help in place of a command. -/
def helpWord : String := "help"

/-- Whether a word stands for a command or for help. -/
def isKnown (word : String) : Bool := (ofName? word).isSome || word == helpWord

/-- The switches that a command accepts. -/
def switches : Verb → List Switch
  | encode =>
    [.setting .alphabet, .setting .output, .flag .json, .flag .verbose, .flag .help]
  | decode => [.setting .alphabet, .setting .output, .flag .verbose, .flag .help]
  | sort =>
    [.setting .key, .setting .delimiter, .setting .head, .setting .seed, .flag .verbose,
     .flag .help]
  | escape | unescape | completions => [.flag .help]

/-- The switch of a command with a given long name. -/
def long? (verb : Verb) (name : String) : Option Switch :=
  verb.switches.find? (·.long == name)

/-- The switch of a command with a given letter. -/
def short? (verb : Verb) (letter : Char) : Option Switch :=
  verb.switches.find? (·.short? == some letter)

end Verb

/-- The alphabets of encoded text. -/
inductive Alphabet where
  | ascii85
  | httpHeader
  deriving DecidableEq, Repr

/-- The alphabet with a given name. -/
def Alphabet.ofName? (name : String) : Option Alphabet :=
  if name = "ascii85" then some ascii85
  else if name = "http-header" then some httpHeader
  else none

/-- The shells that can complete command lines. -/
inductive Shell where
  | bash
  | elvish
  | fish
  | powershell
  | zsh
  deriving DecidableEq, Repr

/-- The shell with a given name. -/
def Shell.ofName? (name : String) : Option Shell :=
  if name = "bash" then some bash
  else if name = "elvish" then some elvish
  else if name = "fish" then some fish
  else if name = "powershell" then some powershell
  else if name = "zsh" then some zsh
  else none

/-- Where input comes from or output goes. -/
inductive Location where
  /-- Standard input or output. -/
  | standard
  | file (path : String)
  deriving DecidableEq, Repr

/-- The location that an argument names. A lone hyphen, or no argument, stands for
the standard stream. Separators after the hyphen make no difference. -/
def Location.ofArgument : Option String → Location
  | none => standard
  | some path =>
    match path.toList.splitOnP (· == '/') with
    | ['-'] :: rest => if rest.all (fun part => part == [] || part == ['.']) then standard
      else file path
    | _ => file path

/-- The values given on a command line. -/
structure Settings where
  file : Option String := none
  shell : Option Shell := none
  alphabet : Option Alphabet := none
  output : Option String := none
  json : Bool := false
  verbose : Bool := false
  /-- In the order given. -/
  keys : List SortKey := []
  delimiter : Option Char := none
  head : Option UInt64 := none
  seed : Option UInt64 := none
  deriving Repr

/-- A task for the program. -/
inductive Request where
  | showVersion
  | showHelp
  | completions (shell : Shell)
  | encode (source target : Location) (alphabet : Alphabet) (json verbose : Bool)
  | decode (source target : Location) (alphabet : Alphabet) (verbose : Bool)
  | escape (source : Location)
  | unescape (source : Location)
  | sort (source : Location) (keys : List SortKey) (delimiter : Option Char)
      (head seed : Option UInt64) (verbose : Bool)
  deriving Repr

/-- The request that settings amount to. Plain Ascii85 is the alphabet if none is
given. -/
def Verb.request (verb : Verb) (s : Settings) : Except UsageError Request :=
  let source := Location.ofArgument s.file
  let target := Location.ofArgument s.output
  let alphabet := s.alphabet.getD .ascii85
  match verb with
  | encode => .ok (.encode source target alphabet s.json s.verbose)
  | decode => .ok (.decode source target alphabet s.verbose)
  | escape => .ok (.escape source)
  | unescape => .ok (.unescape source)
  | sort => .ok (.sort source s.keys s.delimiter s.head s.seed s.verbose)
  | completions =>
    match s.shell with
    | some shell => .ok (.completions shell)
    | none => .error (.missingParameter .shell)

end TextKit.Command
