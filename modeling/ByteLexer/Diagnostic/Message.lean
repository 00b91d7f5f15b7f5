/-!
# Messages

The messages that the library reports, each a code, a category and a
template for its wording. Codes from 1000 on belong to the scanner and
codes from 6000 on to the command line.
-/

namespace ByteLexer

/-- How serious a message is. -/
inductive Category where
  | warning
  | error
  deriving DecidableEq, Repr

/-- The category as it is written. -/
def Category.name : Category → String
  | .warning => "warning"
  | .error => "error"

/-- A message before its places are filled. -/
structure Message where
  code : Nat
  category : Category
  template : String
  deriving DecidableEq, Repr

namespace Message

/-- A quotation mark opens a string that nothing closes. -/
def unclosedQuote : Message :=
  ⟨1002, .error, "Unterminated string literal."⟩

/-- A character starts no token. -/
def strayCharacter : Message :=
  ⟨1127, .error, "Invalid character '\x7b0\x7d'."⟩

/-- Bytes are not UTF-8. -/
def malformedBytes : Message :=
  ⟨1128, .error, "Invalid UTF-8 sequence of \x7b0\x7d byte(s)."⟩

/-- The rest of the source was not scanned. -/
def stoppedEarly : Message :=
  ⟨6001, .warning,
    "Scanning stopped at the first error; pass '--on-error skip' to continue past errors."⟩

end Message

end ByteLexer
