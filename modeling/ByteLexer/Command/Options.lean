/-!
# Options of a run

What the command line settles: where the source comes from, what happens at
an error, how tokens are written and whether they are written at all.
-/

namespace ByteLexer

/-- What a run does after an error token. -/
inductive ErrorPolicy where
  | stop
  | skip
  deriving DecidableEq, Repr

/-- How tokens are written. -/
inductive TokenFormat where
  | text
  | json
  deriving DecidableEq, Repr

/-- Where a source comes from. -/
inductive Input where
  | standard
  | file (path : String)
  deriving DecidableEq, Repr

/-- The name under which diagnostics report a source: that of the file, as it was given. -/
def Input.name : Input → String
  | standard => "<stdin>"
  | file path => path

/-- The settings of a run. -/
structure Options where
  file : Option String
  onError : ErrorPolicy
  format : TokenFormat
  quiet : Bool
  /-- How often a more detailed log was asked for, up to 255. -/
  verbosity : Nat
  deriving DecidableEq, Repr

/-- The source that a run reads: the file, unless there is none or it is `-`. -/
def Options.input (options : Options) : Input :=
  match options.file with
  | none => .standard
  | some path => if path = "-" then .standard else .file path

end ByteLexer
