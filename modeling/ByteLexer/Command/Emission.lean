import ByteLexer.Command.Options
import ByteLexer.Scan.Scanner

/-!
# Writing the tokens of a source

`emit` takes tokens from a scanner and writes each on a line of its own,
unless it is told to be quiet, until it has taken the end of the source or,
under the policy that stops, an error. Each error is reported as it is met,
since the scanner remembers only the last one. The scanner comes back as it
stands afterwards, so that a later emission goes on where this one stopped.

How tokens are written decides nothing else: which tokens are taken, what is
counted and what is reported depend on the policy alone.

**What it leaves out.** A sink grows and does nothing else: a write to it does not fail, and
nothing is flushed. What an emission has taken by the time that a write fails is therefore
left open.
-/

namespace ByteLexer

/-- What an emission counted. -/
structure Summary where
  tokens : Nat
  errors : Nat
  /-- Whether an error ended the emission before the end of the source. -/
  stoppedEarly : Bool
  deriving DecidableEq, Repr

/-- Where an emission writes: the lines of tokens, and what there is to report. -/
structure Sink where
  output : String
  diagnostics : Array Diagnostic
  deriving DecidableEq, Repr

namespace Sink

/-- Nothing is written yet. -/
def empty : Sink :=
  ⟨"", #[]⟩

/-- The sink with a token on a line of its own, unless nothing is to be written. -/
def write (sink : Sink) (options : Options) (token : Token) : Sink :=
  if options.quiet then sink
  else
    let text := match options.format with
      | .text => token.display
      | .json => token.json
    { sink with output := sink.output ++ text ++ "\n" }

/-- The sink with the report of a cause, if there is one. -/
def report (sink : Sink) (cause : Option Cause) : Sink :=
  match cause with
  | some cause => { sink with diagnostics := sink.diagnostics.push cause.diagnostic }
  | none => sink

end Sink

/-- What an emission leaves behind. -/
structure Emission where
  summary : Summary
  sink : Sink
  scanner : Scanner

/-- Goes on with an emission that has taken `tokens` tokens, `errors` of them errors. -/
def emitFrom (options : Options) (tokens errors : Nat) (scanner : Scanner) (sink : Sink) :
    Emission :=
  match _h : scanner.next with
  | (token, after) =>
    let written := sink.write options token
    if _hend : token.isEndOfInput then ⟨⟨tokens + 1, errors, false⟩, written, after⟩
    else if token.isError then
      let reported := written.report after.lastCause
      match options.onError with
      | .stop => ⟨⟨tokens + 1, errors + 1, !after.isExhausted⟩, reported, after⟩
      | .skip => emitFrom options (tokens + 1) (errors + 1) after reported
    else emitFrom options (tokens + 1) errors after written
termination_by scanner.cursor.remaining
decreasing_by
  all_goals
    have hmore : scanner.next.1.isEndOfInput = false := by simpa [_h] using _hend
    simpa [_h] using Scanner.remaining_next_lt hmore

/-- Takes tokens from the scanner and writes them to the sink. -/
def emit (options : Options) (scanner : Scanner) (sink : Sink) : Emission :=
  emitFrom options 0 0 scanner sink

end ByteLexer
