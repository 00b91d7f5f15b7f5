import ByteLexer.Diagnostic.Message
import ByteLexer.Diagnostic.Template
import ByteLexer.Text.Span

/-!
# Diagnostics

A diagnostic is a message with its places filled, and with as much of a
location as is known: the span comes from the scanner, which does not know
what it is reading, and the name of the file from whoever does.
-/

namespace ByteLexer

/-- A report about a source, or about a run as a whole. -/
structure Diagnostic where
  file : Option String
  span : Option Span
  text : String
  code : Nat
  category : Category
  deriving DecidableEq, Repr

namespace Diagnostic

/-- The message about nothing in particular. -/
def ofMessage (message : Message) (arguments : List String) : Diagnostic :=
  ⟨none, none, Template.fill message.template arguments, message.code, message.category⟩

/-- The message about a span of the source. -/
def atSpan (span : Span) (message : Message) (arguments : List String) : Diagnostic :=
  { ofMessage message arguments with span := some span }

/-- The diagnostic with the name of the file that it is about. -/
def inFile (diagnostic : Diagnostic) (file : String) : Diagnostic :=
  { diagnostic with file := some file }

/-- Whether the diagnostic reports an error. -/
def isError (diagnostic : Diagnostic) : Bool :=
  diagnostic.category = .error

end Diagnostic

end ByteLexer
