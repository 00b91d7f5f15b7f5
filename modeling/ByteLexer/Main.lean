import ByteLexer.Command.Outcome

/-!
# The program

Reads the source, runs, and writes the two streams. Everything else is
decided by `ByteLexer.perform`. A run that fails because a sum does not fit
a word ends with exit code 101.
-/

namespace ByteLexer

/-- What an input holds, unless it cannot be read. -/
def Input.read : Input → IO (Option ByteArray)
  | standard => do
    try return some (← (← IO.getStdin).readBinToEnd)
    catch _ => return none
  | file path => do
    try return some (← IO.FS.readBinFile path)
    catch _ => return none

end ByteLexer

/-- Runs the program and returns its exit code. -/
def main (arguments : List String) : IO UInt32 := do
  let errors ← IO.getStderr
  match ← ByteLexer.perform arguments ByteLexer.Input.read (← errors.isTty) with
  | .ok outcome =>
    IO.print outcome.output
    errors.putStr outcome.report
    return outcome.exitCode.toUInt32
  | .error overflow =>
    errors.putStr (overflow.message ++ "\n")
    return 101
