import ByteLexer.Command.Options

/-!
# Reading the command line

Arguments are read from left to right and the first one that is wrong ends
the reading, as does a flag that asks for help. Options may stand before
and after the file. A setting takes its value after an equals sign or from
the next argument, which must not look like an option itself; flags of one
letter may be clustered after a single dash. After `--` nothing is an
option any more, and a lone `-` never is one.

A setting may be given once, and so may the flag that silences the tokens;
only the flag for a more detailed log may be repeated.
-/

namespace ByteLexer

/-- Why there are no options to run with. -/
inductive ArgumentError where
  /-- A value is missing, empty, or not one of those allowed. -/
  | badValue (option : String)
  /-- What may be given once is given again. -/
  | repeated (option : String)
  /-- A flag is given a value. -/
  | unwantedValue (option : String)
  /-- There is no such option, or no place for another file. -/
  | unknown (argument : String)
  /-- Help is asked for. -/
  | helpWanted
  deriving DecidableEq, Repr

/-- An argument by its form. -/
inductive Argument where
  /-- `--`, which ends the options. -/
  | separator
  /-- `--name` or `--name=value`. -/
  | long (name : String) (value : Option String)
  /-- Letters after a single dash. -/
  | letters (cluster : List Char)
  /-- Anything else, a lone dash included. -/
  | operand (text : String)
  deriving DecidableEq, Repr

/-- The argument that a text is; a value begins after the first equals sign. -/
def Argument.ofString (text : String) : Argument :=
  match text.toList with
  | ['-', '-'] => .separator
  | '-' :: '-' :: rest =>
    let value := (rest.dropWhile (· ≠ '=')).tail?.map String.ofList
    .long (String.ofList (rest.takeWhile (· ≠ '='))) value
  | '-' :: letter :: rest => .letters (letter :: rest)
  | _ => .operand text

/-- The options that take no value. -/
inductive Flag where
  | quiet
  | verbose
  | help
  deriving DecidableEq, Repr

/-- The flag with this name. -/
def Flag.ofName? : String → Option Flag
  | "quiet" => some quiet
  | "verbose" => some verbose
  | "help" => some help
  | _ => none

/-- The flag with this letter. -/
def Flag.ofLetter? : Char → Option Flag
  | 'q' => some quiet
  | 'v' => some verbose
  | 'h' => some help
  | _ => none

/-- The options that take a value. -/
inductive Setting where
  | onError
  | format
  deriving DecidableEq, Repr

/-- The setting with this name. -/
def Setting.ofName? : String → Option Setting
  | "on-error" => some onError
  | "format" => some format
  | _ => none

/-- What the arguments read so far have settled. -/
structure Draft where
  file : Option String
  onError : Option ErrorPolicy
  format : Option TokenFormat
  quiet : Bool
  verbosity : Nat
  deriving DecidableEq, Repr

namespace Draft

/-- Nothing is settled yet. -/
def empty : Draft :=
  ⟨none, none, none, false, 0⟩

/-- The draft with the file, of which there may be one. -/
def place (draft : Draft) (path : String) : Except ArgumentError Draft :=
  if draft.file.isSome then .error (.unknown path)
  else if path = "" then .error (.badValue "FILE")
  else .ok { draft with file := some path }

/-- The draft with a flag. -/
def raise (draft : Draft) : Flag → Except ArgumentError Draft
  | .quiet => if draft.quiet then .error (.repeated "--quiet") else .ok { draft with quiet := true }
  | .verbose => .ok { draft with verbosity := min (draft.verbosity + 1) 255 }
  | .help => .error .helpWanted

/-- The draft with the flag of a letter. -/
def raiseLetter (draft : Draft) (letter : Char) : Except ArgumentError Draft :=
  match Flag.ofLetter? letter with
  | some flag => draft.raise flag
  | none => .error (.unknown (String.ofList ['-', letter]))

/-- The draft with a setting, whose value has to be one of those allowed. -/
def assign (draft : Draft) : Setting → (value : String) → Except ArgumentError Draft
  | .onError, value =>
    if draft.onError.isSome then .error (.repeated "--on-error")
    else match value with
      | "stop" => .ok { draft with onError := some .stop }
      | "skip" => .ok { draft with onError := some .skip }
      | _ => .error (.badValue "--on-error")
  | .format, value =>
    if draft.format.isSome then .error (.repeated "--format")
    else match value with
      | "text" => .ok { draft with format := some .text }
      | "json" => .ok { draft with format := some .json }
      | _ => .error (.badValue "--format")

/-- The draft with everything that the arguments settle. -/
def read (draft : Draft) : List String → Except ArgumentError Draft
  | [] => .ok draft
  | text :: rest =>
    match Argument.ofString text with
    | .separator => rest.foldlM place draft
    | .operand path => do (← draft.place path).read rest
    | .letters cluster => do (← cluster.foldlM raiseLetter draft).read rest
    | .long name value =>
      match Setting.ofName? name, Flag.ofName? name, value with
      | some setting, _, some value => do (← draft.assign setting value).read rest
      | some setting, _, none =>
        match rest with
        | [] => .error (.badValue text)
        | value :: rest =>
          match Argument.ofString value with
          | .operand value => do (← draft.assign setting value).read rest
          | _ => .error (.badValue text)
      | none, some _, some _ => .error (.unwantedValue text)
      | none, some flag, none => do (← draft.raise flag).read rest
      | none, none, _ => .error (.unknown text)

/-- The options that a draft amounts to; what is not settled is as usual. -/
def options (draft : Draft) : Options where
  file := draft.file
  onError := draft.onError.getD .stop
  format := draft.format.getD .text
  quiet := draft.quiet
  verbosity := draft.verbosity

end Draft

/-- The options that the arguments ask for. -/
def Options.ofArguments (arguments : List String) : Except ArgumentError Options := do
  return (← Draft.empty.read arguments).options

end ByteLexer
