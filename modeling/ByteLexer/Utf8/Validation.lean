/-!
# UTF-8, a whole stretch at once

`Utf8.validate` turns a stretch of bytes into text, or says where the first
defect is. Validity itself is the standard library's `IsValidUTF8`: the
bytes are the encoding of some list of characters. Only when they are not
are they walked once more, byte by byte, to find the place.

The walk is an automaton. Between two characters it accepts an ASCII byte
or a lead byte; inside a character it accepts the next byte that the lead
byte asked for. It keeps the offset at which the character in progress
began, so that a refused byte, or an end that comes too early, is reported
from there.

Which lead bytes there are and what each asks for is the table `lead?`. The
bounds on the first byte after the lead are what keeps out encodings longer
than needed (`E0`, `F0`), surrogates (`ED`) and numbers above `10FFFF`
(`F4`).
-/

namespace ByteLexer

namespace Utf8

/-- What a lead byte above `7F` asks for: how many bytes are due after it,
and the bounds of the first of those. -/
structure Lead where
  due : Nat
  low : UInt8
  high : UInt8
  deriving DecidableEq, Repr

/-- The lead byte's part in an encoding of more than one byte, if it has one. -/
def lead? (byte : UInt8) : Option Lead :=
  if byte < 0xC2 then none
  else if byte < 0xE0 then some ⟨1, 0x80, 0xBF⟩
  else if byte = 0xE0 then some ⟨2, 0xA0, 0xBF⟩
  else if byte = 0xED then some ⟨2, 0x80, 0x9F⟩
  else if byte < 0xF0 then some ⟨2, 0x80, 0xBF⟩
  else if byte = 0xF0 then some ⟨3, 0x90, 0xBF⟩
  else if byte < 0xF4 then some ⟨3, 0x80, 0xBF⟩
  else if byte = 0xF4 then some ⟨3, 0x80, 0x8F⟩
  else none

/-- Where the first defect of a stretch begins, and how many bytes it has;
the length is absent when the bytes end inside a character. -/
structure Defect where
  offset : Nat
  length : Option Nat
  deriving DecidableEq, Repr

/-- Where the automaton stands: between two characters, or inside one with
`due` bytes to come, the next of them between `low` and `high`. -/
inductive State where
  | between
  | inside (due : Nat) (low high : UInt8)
  deriving DecidableEq, Repr

/-- The state after one more byte, unless the byte is refused. -/
def State.next? : State → UInt8 → Option State
  | .between, byte =>
    if byte < 0x80 then some .between
    else (lead? byte).map fun lead => .inside lead.due lead.low lead.high
  | .inside due low high, byte =>
    if low ≤ byte ∧ byte ≤ high then
      some (if due ≤ 1 then .between else .inside (due - 1) 0x80 0xBF)
    else none

/-- The first defect of the bytes that remain, where `taken` bytes of the
character in progress have been accepted since `start`. A byte refused
between two characters is a defect of its own. -/
def defectFrom (state : State) (start taken : Nat) : List UInt8 → Defect
  | [] => ⟨start, none⟩
  | byte :: rest =>
    match state.next? byte with
    | none => ⟨start, some (max taken 1)⟩
    | some .between => defectFrom .between (start + taken + 1) 0 rest
    | some (.inside due low high) => defectFrom (.inside due low high) start (taken + 1) rest

/-- The first defect of a stretch of bytes that are not valid throughout. -/
def firstDefect (bytes : List UInt8) : Defect :=
  defectFrom .between 0 0 bytes

/-- The text that the bytes encode, or the first defect in them. -/
def validate (bytes : ByteArray) : Except Defect String :=
  if h : bytes.IsValidUTF8 then .ok (String.fromUTF8 bytes h)
  else .error (firstDefect bytes.data.toList)

end Utf8

end ByteLexer
