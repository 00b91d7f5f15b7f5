/-!
# Character classes of the scanner

Every class is ASCII only. A character outside ASCII neither starts nor
continues a token; the only place for it is inside a quoted string.
-/

namespace ByteLexer

namespace CharClass

/-- What separates tokens: space, tab, line feed and carriage return. -/
def isSpace (c : Char) : Bool :=
  c = ' ' || c = '\t' || c = '\n' || c = '\r'

/-- The ten digits. -/
def isDigit (c : Char) : Bool :=
  '0' ≤ c && c ≤ '9'

/-- What an identifier may start with: a letter or the underscore. -/
def isIdentifierStart (c : Char) : Bool :=
  ('a' ≤ c && c ≤ 'z') || ('A' ≤ c && c ≤ 'Z') || c = '_'

/-- What an identifier may go on with. -/
def isIdentifierPart (c : Char) : Bool :=
  isIdentifierStart c || isDigit c

/-- The mark that opens and closes a quoted string. -/
def quoteMark : Char := '\x22'

/-- The byte that encodes `quoteMark`. It occurs in the encoding of no other
character, so a search for the byte is a search for the mark. -/
def quoteByte : UInt8 := 0x22

end CharClass

end ByteLexer
