import TextKit.Command.Arguments
import TextKit.Command.Procedure

/-!
# Running the program

A run takes the arguments, standard input, and the files as they are, and leaves
an exit status, what was written to the two standard streams, and the files. The
status is 2 for a usage error, 1 for a failure, and 0 otherwise. A failure ends the
run where it occurs and takes nothing back.
-/

namespace TextKit.Command

/-- What a run leaves behind. -/
structure Outcome where
  status : Nat
  stdout : Bytes
  stderr : String
  workspace : Workspace
  deriving DecidableEq, Repr

/-- How a failure is reported. -/
def failureReport (failure : Failure) : String := "Error: " ++ failure.message ++ "\n"

/-- How a usage error is reported. -/
def usageReport (error : UsageError) : String := String.ofList error.report

/-- Where output is written to. -/
inductive Sink where
  | standard
  | file (place : Place)
  deriving DecidableEq, Repr

/-- The world around a run, at some point of it. -/
structure Console where
  workspace : Workspace
  stdin : Bytes
  stdout : Array UInt8 := #[]
  stderr : String := ""
  /-- The place that was opened last. -/
  sink : Sink := .standard
  deriving DecidableEq, Repr

namespace Console

/-- All that an input holds. -/
def input (c : Console) : Location → Except Failure Bytes
  | .standard => .ok c.stdin
  | .file path => (c.workspace.read path).mapError .storage

/-- Give a notice. -/
def say (c : Console) (notice : String) : Console := { c with stderr := c.stderr ++ notice }

/-- Open the place of the output. -/
def create (c : Console) : Location → Except Failure Console
  | .standard => .ok { c with sink := .standard }
  | .file path => do
    let (place, workspace) ← (c.workspace.create path).mapError .storage
    return { c with workspace := workspace, sink := .file place }

/-- Write to the output. -/
def write (c : Console) (content : Bytes) : Console :=
  match c.sink with
  | .standard => { c with stdout := c.stdout ++ content }
  | .file place => { c with workspace := c.workspace.append place content }

/-- What is left behind by a run that ends here. -/
def outcome (c : Console) (status : Nat) : Outcome :=
  ⟨status, c.stdout.toList, c.stderr, c.workspace⟩

/-- What is left behind by a run that fails here. -/
def abort (c : Console) (failure : Failure) : Outcome := (c.say (failureReport failure)).outcome 1

end Console

/-- Take the steps of a procedure. -/
def Procedure.run : Procedure → Console → Outcome
  | done, c => c.outcome 0
  | fail failure, c => c.abort failure
  | read source next, c =>
    match c.input source with
    | .ok input => (next input).run c
    | .error failure => c.abort failure
  | say notice next, c => next.run (c.say notice)
  | create target next, c =>
    match c.create target with
    | .ok c => next.run c
    | .error failure => c.abort failure
  | write content next, c => (next ()).run (c.write content)

/-- Do what a request asks for. -/
def perform (w : Workspace) (stdin : Bytes) (entropy : UInt64) (request : Request) : Outcome :=
  (request.procedure entropy).run { workspace := w, stdin := stdin }

/-- Run the program. -/
def run (w : Workspace) (stdin : Bytes) (entropy : UInt64) (args : List String) : Outcome :=
  match Request.parse args with
  | .ok request => perform w stdin entropy request
  | .error error => ⟨2, [], usageReport error, w⟩

end TextKit.Command
