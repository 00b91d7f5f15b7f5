import ByteLexer.Command.Arguments
import ByteLexer.Command.Emission
import ByteLexer.Diagnostic.Rendering

/-!
# The outcome of a run

A run of the program ends with an exit code, and has by then written tokens
to one stream and reports to another. The exit code is 0 when the source was
scanned without an error, 1 when there was one, and 2 when there was nothing
to scan, be it that the arguments are wrong or that the source cannot be
read. Asking for help is no error.

`perform` is the program except for the reading of the source and the
writing of the streams. Reading is left to a parameter in a monad of the
caller's choice, so that one definition serves a run on files and a run on
sources held in memory.

**What it leaves out.** The log has no definition here, so the flag that asks for more of it
is read and changes nothing. The streams take whatever is written to them. The wording of the
help and of what is wrong with the arguments is this program's own, and no theorem is about
it.
-/

namespace ByteLexer

/-- What a run leaves: its exit code, and what it wrote to its two streams. -/
structure Outcome where
  exitCode : Nat
  output : String
  report : String
  deriving DecidableEq, Repr

/-- How to call the program. -/
def usage : String :=
  String.intercalate "\n"
    ["Usage: bytelexer [OPTIONS] [FILE]",
     "",
     "Scan a source file and print its tokens",
     "",
     "Arguments:",
     "  [FILE]  Source file to scan; standard input when absent or '-'",
     "",
     "Options:",
     "      --on-error <stop|skip>  What to do when an error token is produced",
     "      --format <text|json>    Output format for tokens",
     "  -q, --quiet                 Only print diagnostics, not tokens",
     "  -v, --verbose               Ask for a more detailed log",
     "  -h, --help                  Print this help",
     ""]

/-- What is wrong with the arguments, in words. -/
def ArgumentError.describe : ArgumentError → String
  | badValue option => "a value of '" ++ option ++ "' is missing or not allowed"
  | repeated option => "the argument '" ++ option ++ "' cannot be used multiple times"
  | unwantedValue option => "the argument '" ++ option ++ "' takes no value"
  | unknown argument => "unexpected argument '" ++ argument ++ "' found"
  | helpWanted => "help is asked for"

namespace Outcome

/-- The outcome of a run without options. -/
def ofArgumentError : ArgumentError → Outcome
  | .helpWanted => ⟨0, usage, ""⟩
  | error => ⟨2, "", "error: " ++ error.describe ++ "\n\n" ++ usage⟩

/-- The outcome of a run whose source cannot be read. -/
def unreadable (input : Input) : Outcome :=
  ⟨2, "", "Error: failed to read '" ++ input.name ++ "'\n"⟩

/-- The lines that report diagnostics about a source of the given name. -/
def renderAll (name : String) (lines : LineMap) (color : Bool) (diagnostics : Array Diagnostic) :
    Except Overflow String :=
  diagnostics.foldlM (fun written diagnostic => do
    return written ++ (← (diagnostic.inFile name).render lines color)) ""

/-- What a run reports after an emission: the errors, and whether they kept it from the end. -/
def reported (emission : Emission) : Array Diagnostic :=
  if emission.summary.stoppedEarly then
    emission.sink.diagnostics.push (.ofMessage .stoppedEarly [])
  else emission.sink.diagnostics

/-- The outcome of a run on a source that goes by `name` in reports. -/
def ofSource (options : Options) (name : String) (source : ByteArray) (color : Bool) :
    Except Overflow Outcome := do
  let emission := emit options (Scanner.start source) Sink.empty
  let report ← renderAll name (LineMap.ofSource source) color (reported emission)
  return ⟨if emission.summary.errors > 0 then 1 else 0, emission.sink.output, report⟩

end Outcome

/-- Runs the program on its arguments, where `read` gives what an input holds. -/
def perform {m : Type → Type} [Monad m] (arguments : List String)
    (read : Input → m (Option ByteArray)) (color : Bool) : m (Except Overflow Outcome) :=
  match Options.ofArguments arguments with
  | .error error => return .ok (.ofArgumentError error)
  | .ok options => do
    match ← read options.input with
    | none => return .ok (.unreadable options.input)
    | some source => return Outcome.ofSource options options.input.name source color

end ByteLexer
