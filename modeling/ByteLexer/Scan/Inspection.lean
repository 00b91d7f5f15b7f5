import ByteLexer.Scan.Scanner

/-!
# A scanner on one line

What a programmer sees of a scanner, or of a cause, while looking for a
fault: the name of the value and its fields in braces. The source is left
out of a scanner's line in favour of its length, which two dots at the end
of the line admit.
-/

namespace ByteLexer

namespace Inspection

/-- A named value with its fields, or with dots for those left out. -/
def record (name : String) (fields : List (String × String)) (isWhole : Bool) : String :=
  let shownFields := fields.map fun (label, value) => label ++ ": " ++ value
  let parts := if isWhole then shownFields else shownFields ++ [".."]
  name ++ " \x7b " ++ String.intercalate ", " parts ++ " \x7d"

/-- A value that may be absent. -/
def optional : Option String → String
  | some value => "Some(" ++ value ++ ")"
  | none => "None"

end Inspection

/-- A reading as an inspection shows it. -/
def Reading.inspect : Reading → String
  | .char c => "Char(" ++ quoted c ++ ")"
  | .malformed => "Malformed"

/-- A cause as an inspection shows it. -/
def Cause.inspect : Cause → String
  | unclosedQuote offset =>
    Inspection.record "UnterminatedString" [("offset", toString offset)] true
  | strayCharacter character offset =>
    Inspection.record "UnrecognizedCharacter"
      [("ch", quoted character), ("offset", toString offset)] true
  | malformedBytes offset length =>
    Inspection.record "InvalidUtf8" [("offset", toString offset), ("len", toString length)] true

/-- A scanner as an inspection shows it. -/
def Scanner.inspect (scanner : Scanner) : String :=
  Inspection.record "Scanner"
    [("len", toString scanner.source.size),
     ("current", Inspection.optional (scanner.cursor.current.map Reading.inspect)),
     ("pos", toString scanner.cursor.position),
     ("next_pos", toString scanner.cursor.next),
     ("last_error", Inspection.optional (scanner.lastCause.map Cause.inspect))] false

end ByteLexer
