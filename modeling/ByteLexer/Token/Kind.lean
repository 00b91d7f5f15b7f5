/-!
# Kinds of token

The closed set of kinds, with the name that each is printed under. Two kinds
are reserved for the scanner itself and carry no text, one is kept for
grammars that distinguish comments (the scanner never produces it), three
are literals, and each of the other twenty-three is an operator spelled by a
single ASCII character.

There are two tables of spellings, one for each direction, and neither is
computed from the other. `Kind.operatorChar?` goes from an operator to its
character, and settles which kinds are operators. `Kind.ofByte?` goes from a
byte to its operator, and is what the scanner looks up, by way of
`Kind.ofChar?` since it holds a character that has been decoded. That the
tables agree is a theorem in two halves: a byte that is found is the spelling
of what is found (`operatorChar?_of_ofByte?`), and every spelling is found
(`ofByte?_of_operatorChar?`). Together they give the lookup of a character as
an equivalence (`ofChar?_eq_some_iff`), and later modules go from one table to
the other by it. The list of operators is a third copy, and holds the same
kinds (`operators_eq_filter`).

The order of the constructors is the order in which kinds are sorted. It says
nothing about precedence: the scanner has no notion of an expression.
-/

namespace ByteLexer

/-- The kind of a token, in the order in which kinds are sorted. -/
inductive Kind where
  | error
  | endOfInput
  | comment
  | identifier
  | number
  | quote
  | plus
  | minus
  | multiply
  | period
  | backslash
  | colon
  | percent
  | pipe
  | exclamation
  | question
  | pound
  | ampersand
  | semicolon
  | comma
  | leftParen
  | rightParen
  | leftAngle
  | rightAngle
  | leftBrace
  | rightBrace
  | leftBracket
  | rightBracket
  | equals
  deriving DecidableEq, Repr

namespace Kind

/-- Every kind, in order. -/
def all : List Kind :=
  [.error, .endOfInput, .comment, .identifier, .number, .quote, .plus, .minus, .multiply,
   .period, .backslash, .colon, .percent, .pipe, .exclamation, .question, .pound, .ampersand,
   .semicolon, .comma, .leftParen, .rightParen, .leftAngle, .rightAngle, .leftBrace,
   .rightBrace, .leftBracket, .rightBracket, .equals]

/-- The name that a kind is printed under. -/
def name : Kind → String
  | .error => "ERROR"
  | .endOfInput => "EOF"
  | .comment => "COMMENT"
  | .identifier => "IDENTIFIER"
  | .number => "NUMBER"
  | .quote => "QUOTE"
  | .plus => "PLUS"
  | .minus => "MINUS"
  | .multiply => "MULTIPLY"
  | .period => "PERIOD"
  | .backslash => "BACKSLASH"
  | .colon => "COLON"
  | .percent => "PERCENT"
  | .pipe => "PIPE"
  | .exclamation => "EXCLAMATION"
  | .question => "QUESTION"
  | .pound => "POUND"
  | .ampersand => "AMPERSAND"
  | .semicolon => "SEMI"
  | .comma => "COMMA"
  | .leftParen => "L_PAREN"
  | .rightParen => "R_PAREN"
  | .leftAngle => "L_ANG"
  | .rightAngle => "R_ANG"
  | .leftBrace => "L_BRACE"
  | .rightBrace => "R_BRACE"
  | .leftBracket => "L_BRACKET"
  | .rightBracket => "R_BRACKET"
  | .equals => "EQUALS"

/-- The character that an operator is spelled with. -/
def operatorChar? : Kind → Option Char
  | .plus => some '+'
  | .minus => some '-'
  | .multiply => some '*'
  | .period => some '.'
  | .backslash => some '\\'
  | .colon => some ':'
  | .percent => some '%'
  | .pipe => some '|'
  | .exclamation => some '!'
  | .question => some '?'
  | .pound => some '#'
  | .ampersand => some '&'
  | .semicolon => some ';'
  | .comma => some ','
  | .leftParen => some '('
  | .rightParen => some ')'
  | .leftAngle => some '<'
  | .rightAngle => some '>'
  | .leftBrace => some '{'
  | .rightBrace => some '}'
  | .leftBracket => some '['
  | .rightBracket => some ']'
  | .equals => some '='
  | _ => none

/-- Whether a kind is an operator. -/
def isOperator (kind : Kind) : Bool :=
  kind.operatorChar?.isSome

/-- Whether a kind is reserved for the scanner and carries no text. -/
def isReserved (kind : Kind) : Bool :=
  kind = .error || kind = .endOfInput

/-- Whether a kind is a literal. -/
def isLiteral (kind : Kind) : Bool :=
  kind = .identifier || kind = .number || kind = .quote

/-- Every operator, in order. -/
def operators : List Kind :=
  [.plus, .minus, .multiply, .period, .backslash, .colon, .percent, .pipe, .exclamation,
   .question, .pound, .ampersand, .semicolon, .comma, .leftParen, .rightParen, .leftAngle,
   .rightAngle, .leftBrace, .rightBrace, .leftBracket, .rightBracket, .equals]

/-- The operator that a byte spells. A byte above `7F` is refused before the
table is consulted, so that no part of a longer character is taken for an
operator. -/
def ofByte? (byte : UInt8) : Option Kind :=
  if 0x80 ≤ byte then none
  else match byte with
    | 0x2B => some .plus
    | 0x2D => some .minus
    | 0x2A => some .multiply
    | 0x2E => some .period
    | 0x5C => some .backslash
    | 0x3A => some .colon
    | 0x25 => some .percent
    | 0x7C => some .pipe
    | 0x21 => some .exclamation
    | 0x3F => some .question
    | 0x23 => some .pound
    | 0x26 => some .ampersand
    | 0x3B => some .semicolon
    | 0x2C => some .comma
    | 0x28 => some .leftParen
    | 0x29 => some .rightParen
    | 0x3C => some .leftAngle
    | 0x3E => some .rightAngle
    | 0x7B => some .leftBrace
    | 0x7D => some .rightBrace
    | 0x5B => some .leftBracket
    | 0x5D => some .rightBracket
    | 0x3D => some .equals
    | _ => none

/-- The operator that a character spells: the character has to fit into a
byte, and the byte is looked up. -/
def ofChar? (c : Char) : Option Kind :=
  if c.toNat < 256 then ofByte? (UInt8.ofNat c.toNat) else none

/-- The distinct members of a list of kinds, in order. -/
def sorted (kinds : List Kind) : List Kind :=
  all.filter (kinds.contains ·)

/-- Every kind is listed. -/
theorem mem_all (kind : Kind) : kind ∈ all := by
  cases kind <;> decide

/-- The list of operators holds the kinds that have a spelling, and no other. -/
theorem operators_eq_filter : operators = all.filter isOperator := by
  decide

/-! ## The two tables agree -/

/-- A byte that is found is the spelling of what is found. -/
theorem operatorChar?_of_ofByte? {byte : UInt8} {kind : Kind} (h : ofByte? byte = some kind) :
    kind.operatorChar? = some (Char.ofNat byte.toNat) := by
  unfold ofByte? at h
  split at h
  · cases h
  · -- one case for each row of the table, and the last for the bytes that are in none
    split at h
    all_goals cases h
    all_goals rfl

/-- Every spelling fits into a byte, and is found. -/
theorem ofByte?_of_operatorChar? {kind : Kind} {c : Char} (h : kind.operatorChar? = some c) :
    c.toNat < 256 ∧ ofByte? (UInt8.ofNat c.toNat) = some kind := by
  cases kind
  all_goals cases h
  all_goals decide

/-- Looking a character up finds the operator that it spells, and no other. -/
theorem ofChar?_eq_some_iff {c : Char} {kind : Kind} :
    ofChar? c = some kind ↔ kind.operatorChar? = some c := by
  constructor
  · intro h
    rw [ofChar?] at h
    split at h
    next hfits =>
      have hspelling := operatorChar?_of_ofByte? h
      rwa [UInt8.toNat_ofNat_of_lt' hfits, Char.ofNat_toNat] at hspelling
    next => cases h
  · intro h
    obtain ⟨hfits, hfound⟩ := ofByte?_of_operatorChar? h
    rw [ofChar?, if_pos hfits, hfound]

end Kind

end ByteLexer
