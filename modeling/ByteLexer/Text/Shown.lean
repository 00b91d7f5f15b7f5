import ByteLexer.Text.Hidden

/-!
# Characters as messages show them

A message shows a character of the source as itself, unless that would
damage the message: controls and other hidden characters are shown by their
code point, and quotation marks and the backslash after a backslash.

There are two settings, and they differ in one character only. Bare text
may end up between either kind of quotation marks, so both kinds are
escaped (`shown`). A character that is quoted here and now stands between
single marks, where a double mark does no harm (`quoted`).
-/

namespace ByteLexer

namespace Shown

/-- The escapes by name that hold in either setting. -/
def named : List (Char × String) :=
  [('\x00', "\\0"), ('\t', "\\t"), ('\n', "\\n"), ('\r', "\\r"), ('\\', "\\\\"), ('\x27', "\\'")]

/-- A character by its code point, in lower-case hexadecimal. -/
def byCode (c : Char) : String :=
  "\\u\x7b" ++ String.ofList (Nat.toDigits 16 c.toNat) ++ "\x7d"

/-- A character with the escapes that hold in either setting. -/
def common (c : Char) : String :=
  match named.lookup c with
  | some escape => escape
  | none => if isHidden c then byCode c else String.singleton c

end Shown

/-- A character as it is shown in bare text. -/
def shown (c : Char) : String :=
  if c = '\x22' then "\\\"" else Shown.common c

/-- A character as it is shown between single quotation marks, with them. -/
def quoted (c : Char) : String :=
  "'" ++ Shown.common c ++ "'"

end ByteLexer
