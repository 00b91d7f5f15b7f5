import ByteLexer.Word

/-!
# Lines and columns

A `LineMap` holds the offset at which each line of a source begins. Only a
line feed ends a line; a carriage return before it is the last byte of the
line it ends. Lines and columns count from zero, columns in bytes, and are
written counting from one, as editors do (`Position.display`).

The line of an offset is found by bisection: `firstAfter` is the index of
the first line that begins after the offset, and the line before that one
holds it. Offsets beyond the end of the source belong to its last line.
-/

namespace ByteLexer

/-- A place in a source by line and by byte in that line, both from zero. -/
structure Position where
  line : Nat
  column : Nat
  deriving DecidableEq, Repr

/-- The position written as `line:column`, both from one. -/
def Position.display (position : Position) : Except Overflow String := do
  let line ← Word.add position.line 1
  let column ← Word.add position.column 1
  return toString line ++ ":" ++ toString column

/-- The offsets at which the lines of a source begin, in order. -/
structure LineMap where
  starts : Array Nat
  deriving DecidableEq, Repr

namespace LineMap

/-- The byte that ends a line. -/
def lineFeed : UInt8 := 10

/-- Adds to `starts` the offset after each line feed from byte `i` on. -/
def startsFrom (source : ByteArray) (i : Nat) (starts : Array Nat) : Array Nat :=
  if h : i < source.size then
    startsFrom source (i + 1) (if source[i] = lineFeed then starts.push (i + 1) else starts)
  else starts
termination_by source.size - i

/-- The line map of a source: the first line begins at offset 0. -/
def ofSource (source : ByteArray) : LineMap :=
  ⟨startsFrom source 0 #[0]⟩

/-- The index of the first of `starts` after `offset`, sought from `low` and below `high`. -/
def firstAfter (starts : Array Nat) (offset low high : Nat) (bounded : high ≤ starts.size) : Nat :=
  if h : low < high then
    let middle := (low + high) / 2
    have below : middle < starts.size := by omega
    if starts[middle] ≤ offset then firstAfter starts offset (middle + 1) high bounded
    else firstAfter starts offset low middle (by omega)
  else low
termination_by high - low

/-- The line that holds the byte at `offset`, counted from zero. -/
def lineOf (map : LineMap) (offset : Nat) : Nat :=
  firstAfter map.starts offset 0 map.starts.size (Nat.le_refl _) - 1

/-- The line and the column of `offset`. -/
def position (map : LineMap) (offset : Nat) : Position :=
  let line := map.lineOf offset
  ⟨line, offset - map.starts.getD line 0⟩

end LineMap

end ByteLexer
