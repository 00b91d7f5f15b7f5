import ByteLexer.Text.Json
import ByteLexer.Text.Span
import ByteLexer.Token.Kind

/-!
# Tokens

A token is a kind, the text it was made of and the offset of its first
byte. The two reserved kinds have no text, so a token of one of them is
given by its offset alone.

Tokens are written in two forms. `display` puts the text between single
quotation marks exactly as it is, whatever it holds; `json` is an object
whose text is escaped as JSON requires.
-/

namespace ByteLexer

/-- A classified piece of the source, `offset` bytes into it. -/
structure Token where
  kind : Kind
  text : String
  offset : Nat
  deriving DecidableEq, Repr

namespace Token

/-- The token for a place that could not be scanned. -/
def error (offset : Nat) : Token :=
  ⟨.error, "", offset⟩

/-- The token for the end of the source. -/
def endOfInput (offset : Nat) : Token :=
  ⟨.endOfInput, "", offset⟩

/-- Whether this token stands for a place that could not be scanned. -/
def isError (token : Token) : Bool :=
  token.kind = .error

/-- Whether this token stands for the end of the source. -/
def isEndOfInput (token : Token) : Bool :=
  token.kind = .endOfInput

/-- The bytes that the text occupies. -/
def span (token : Token) : Span :=
  ⟨token.offset, token.text.utf8ByteSize⟩

/-- The offset just past the last byte of the text. -/
def stop (token : Token) : Except Overflow Nat :=
  token.span.stop

/-- The token as a line of plain output shows it. -/
def display (token : Token) : String :=
  "Token\x7b" ++ token.kind.name ++ ", '" ++ token.text ++ "', " ++ toString token.offset ++ "\x7d"

/-- The token as a JSON object. -/
def json (token : Token) : String :=
  "\x7b\"kind\":" ++ Json.string token.kind.name ++ ",\"text\":" ++ Json.string token.text ++
    ",\"offset\":" ++ toString token.offset ++ "\x7d"

end Token

end ByteLexer
