import ByteLexer.Diagnostic.Basic
import ByteLexer.Text.Shown

/-!
# Causes of error tokens

An error token says where scanning failed; its cause says why, and points at
the bytes to blame. The two places differ in one situation: a closed quoted
string with malformed bytes in it fails at its opening mark, and the cause
points at the malformed bytes.
-/

namespace ByteLexer

/-- Why the scanner produced an error token. -/
inductive Cause where
  /-- The source ends before the string that opens at `offset` is closed. -/
  | unclosedQuote (offset : Nat)
  /-- No token starts with this character. -/
  | strayCharacter (character : Char) (offset : Nat)
  /-- These bytes are not UTF-8. -/
  | malformedBytes (offset length : Nat)
  deriving DecidableEq, Repr

namespace Cause

/-- The offset of the first byte to blame. -/
def offset : Cause → Nat
  | unclosedQuote offset => offset
  | strayCharacter _ offset => offset
  | malformedBytes offset _ => offset

/-- The bytes to blame: the opening mark, the character, or the malformed bytes. -/
def span : Cause → Span
  | unclosedQuote offset => ⟨offset, 1⟩
  | strayCharacter character offset => ⟨offset, character.utf8Size⟩
  | malformedBytes offset length => ⟨offset, length⟩

/-- The message that reports a cause. -/
def message : Cause → Message
  | unclosedQuote _ => .unclosedQuote
  | strayCharacter .. => .strayCharacter
  | malformedBytes .. => .malformedBytes

/-- What fills the places of the message. -/
def arguments : Cause → List String
  | unclosedQuote _ => []
  | strayCharacter character _ => [shown character]
  | malformedBytes _ length => [toString length]

/-- The code of the message that reports a cause. -/
def code (cause : Cause) : Nat :=
  cause.message.code

/-- The diagnostic that reports a cause. -/
def diagnostic (cause : Cause) : Diagnostic :=
  .atSpan cause.span cause.message cause.arguments

/-- The cause in words, for a reader who does not have the source at hand. -/
def display : Cause → String
  | unclosedQuote offset => "unterminated string literal starting at byte " ++ toString offset
  | strayCharacter character offset =>
    "invalid character " ++ quoted character ++ " at byte " ++ toString offset
  | malformedBytes offset length =>
    "invalid UTF-8 sequence of " ++ toString length ++ " byte(s) at byte " ++ toString offset

end Cause

end ByteLexer
