import TextKit.Command.Arguments
import TextKit.Proofs.Outcome

/-!
# The name of the output on the command line

The name that a command line gives to the output can be found without reading the rest of it.
An argument asks for the name in the next argument, or has it attached, if it is the switch for
the output in its long form, or in its short form behind the letters of flags. Behind two
hyphens nothing is a switch.

Reading finds the same name. The arguments still to be read name the output unless it has been
named already: then the name has been entered, or is held back until it is checked. A second
name is refused, so every argument keeps this.
-/

namespace TextKit.Command

/-- Where a request puts its output. -/
def Request.target : Request → Location
  | encode _ target .. | decode _ target .. => target
  | showVersion | showHelp | completions _ | escape _ | unescape _ | sort .. => .standard

namespace Reading

variable {r r' : Reading} {settings settings' : Settings}

section Setting

variable {s : Setting} {text : String} {m : OutputMention} {rest : List String}

end Setting

end Reading

namespace Verb

open Reading

variable {r r' : Reading} {verb : Verb} {arg : String} {rest : List String}

end Verb

namespace Request

variable {args : List String} {request : Request}

end Request

end TextKit.Command
