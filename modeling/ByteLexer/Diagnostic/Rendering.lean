import ByteLexer.Diagnostic.Basic
import ByteLexer.Text.LineMap

/-!
# Diagnostics as lines of text

A diagnostic is written on one line: its location, if a file is known, then
the category, the code and the text. A span without a file is not shown.
In colour, the location and the code are cyan and the category is bold, red
for an error and yellow for a warning.
-/

namespace ByteLexer

namespace Diagnostic

/-- The control sequences of a terminal that a coloured line uses. -/
inductive Style where
  | reset
  | bold
  | red
  | yellow
  | cyan
  deriving DecidableEq, Repr

/-- The sequence that a terminal takes for a style. -/
def Style.sequence : Style → String
  | .reset => "\x1b[0m"
  | .bold => "\x1b[1m"
  | .red => "\x1b[31m"
  | .yellow => "\x1b[33m"
  | .cyan => "\x1b[36m"

/-- The location as far as it is known: the file, and in it the line and the
column at which the span begins. -/
def location (diagnostic : Diagnostic) (lines : LineMap) : Except Overflow (Option String) :=
  match diagnostic.file, diagnostic.span with
  | some file, some span => do
    let position ← (lines.position span.start).display
    return some (file ++ ":" ++ position)
  | some file, none => return some file
  | none, _ => return none

/-- A location in front of a diagnostic. -/
def locationPart (color : Bool) : Option String → String
  | none => ""
  | some location =>
    if color then Style.cyan.sequence ++ location ++ Style.reset.sequence ++ ": "
    else location ++ ": "

/-- The code, with the letters that mark it as one. -/
def codeName (diagnostic : Diagnostic) : String :=
  "TBL" ++ toString diagnostic.code

/-- The category and the code of a diagnostic. -/
def headingPart (diagnostic : Diagnostic) (color : Bool) : String :=
  if color then
    let severity := if diagnostic.isError then Style.red else Style.yellow
    Style.bold.sequence ++ severity.sequence ++ diagnostic.category.name ++ Style.reset.sequence ++
      " " ++ Style.cyan.sequence ++ diagnostic.codeName ++ Style.reset.sequence
  else diagnostic.category.name ++ " " ++ diagnostic.codeName

/-- The line that reports a diagnostic about the source with these lines. -/
def render (diagnostic : Diagnostic) (lines : LineMap) (color : Bool) : Except Overflow String := do
  let location ← diagnostic.location lines
  return locationPart color location ++ diagnostic.headingPart color ++ ": " ++ diagnostic.text ++ "\n"

end Diagnostic

end ByteLexer
