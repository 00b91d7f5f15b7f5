/-!
# Message templates

A template is a text with numbered places `{0}`, `{1}` and so on. `fill`
takes the arguments in order, and for each replaces every occurrence of its
place in the whole text as it stands by then. A later argument's place is
therefore also found inside an argument filled in earlier, or where one
meets the text around it; the templates of this library have one place at
most, so there the question does not arise.
-/

namespace ByteLexer

namespace Template

/-- Replaces every occurrence of `pattern`, from left to right, after
leaving out `skip` characters: those of an occurrence just replaced. -/
def replaceFrom (pattern replacement : List Char) : (skip : Nat) → List Char → List Char
  | _, [] => []
  | skip + 1, _ :: rest => replaceFrom pattern replacement skip rest
  | 0, c :: rest =>
    if pattern.isPrefixOf (c :: rest) then
      replacement ++ replaceFrom pattern replacement (pattern.length - 1) rest
    else c :: replaceFrom pattern replacement 0 rest

/-- Replaces every occurrence of `pattern`, from left to right. -/
def replace (pattern replacement text : List Char) : List Char :=
  replaceFrom pattern replacement 0 text

/-- The place that the argument with this index fills. -/
def place (index : Nat) : List Char :=
  '\x7b' :: Nat.toDigits 10 index ++ ['\x7d']

/-- Fills the places from `index` on with the arguments, one after the other. -/
def fillFrom (index : Nat) (text : List Char) : List (List Char) → List Char
  | [] => text
  | argument :: rest => fillFrom (index + 1) (replace (place index) argument text) rest

/-- The template with its places filled by the arguments. -/
def fill (template : String) (arguments : List String) : String :=
  String.ofList (fillFrom 0 template.toList (arguments.map String.toList))

end Template

end ByteLexer
