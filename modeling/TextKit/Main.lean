import TextKit.Command.Session

/-!
# The command-line program

The outer layer: it takes the request from the arguments, and the steps that the
request asks for on the real files and streams.
-/

namespace TextKit

open Command

/-- The number of a system error, which may come negated. -/
def systemNumber (code : UInt32) : UInt32 := min code (0 - code)

/-- The fault that a failed file operation stands for, if it is a known one. -/
def storageFault? : IO.Error → Option StorageFault
  | .noFileOrDirectory .. => some .notFound
  | .inappropriateType _ code _ =>
    some (if systemNumber code = 21 then .isDirectory else .notDirectory)
  | .invalidArgument _ code _ => if systemNumber code = 36 then some .nameTooLong else none
  | _ => none

/-- Report a failed file operation. -/
def reportIO (error : IO.Error) : IO UInt32 := do
  match storageFault? error with
  | some fault => IO.eprint (failureReport (.storage fault))
  | none => IO.eprint ("Error: " ++ toString error ++ "\n")
  return 1

/-- All bytes of standard input. -/
def readStandard : IO Bytes := do
  let bytes ← (← IO.getStdin).readBinToEnd
  return bytes.toList

/-- All that an input holds. -/
def fetch : Location → IO Bytes
  | .standard => readStandard
  | .file path => return (← IO.FS.readBinFile path).toList

/-- Open the place of an output. -/
def openTarget : Location → IO IO.FS.Stream
  | .standard => IO.getStdout
  | .file path => return .ofHandle (← IO.FS.Handle.mk path .write)

/-- Take the steps of a procedure. Output goes to `out` until another place is opened. -/
def carryOut (out : IO.FS.Stream) : Procedure → IO UInt32
  | .done => do
    out.flush
    return 0
  | .fail failure => do
    IO.eprint (failureReport failure)
    return 1
  | .read source next => do
    let input ← fetch source
    carryOut out (next input)
  | .say notice next => do
    IO.eprint notice
    carryOut out next
  | .create target next => do
    let out ← openTarget target
    carryOut out next
  | .write content next => do
    out.write ⟨content.toArray⟩
    carryOut out (next ())

end TextKit

/-- Run with the given arguments. -/
def main (args : List String) : IO UInt32 := do
  match TextKit.Command.Request.parse args with
  | .error error =>
    IO.eprint (TextKit.Command.usageReport error)
    return 2
  | .ok request =>
    let clock ← IO.monoNanosNow
    try TextKit.carryOut (← IO.getStdout) (request.procedure (UInt64.ofNat clock))
    catch error => TextKit.reportIO error
