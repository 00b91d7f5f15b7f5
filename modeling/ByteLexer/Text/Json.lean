/-!
# JSON strings

`Json.string` writes a text as a JSON string. What JSON requires is escaped
and nothing else: the double quotation mark, the backslash, and the control
characters below U+0020, the five that have a name by it and the others by
their code in four lower-case hexadecimal digits. Everything else, U+007F
and all that is not ASCII included, stands as it is, so a written string
holds no line feed.
-/

namespace ByteLexer

namespace Json

/-- The escapes by name. -/
def named : List (Char × String) :=
  [('\x22', "\\\""), ('\\', "\\\\"), ('\x08', "\\b"), ('\t', "\\t"), ('\n', "\\n"),
   ('\x0c', "\\f"), ('\r', "\\r")]

/-- A control character by its code; those below U+0020 have two digits at most. -/
def byCode (c : Char) : String :=
  "\\u00" ++ String.ofList [Nat.digitChar (c.toNat / 16), Nat.digitChar (c.toNat % 16)]

/-- A character inside a JSON string. -/
def character (c : Char) : String :=
  match named.lookup c with
  | some escape => escape
  | none => if c.toNat < 0x20 then byCode c else String.singleton c

/-- A text as a JSON string. -/
def string (text : String) : String :=
  text.toList.foldl (fun written c => written ++ character c) "\"" ++ "\""

end Json

end ByteLexer
