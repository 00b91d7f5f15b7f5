import ByteLexer.Word

/-!
# Spans — where something stands in the source

A span is a byte offset and a length in bytes, never a count of characters.
Its end is a sum of two words and is therefore computed on request, with
`Span.stop`, and not stored: a span whose end overflows can be held and
passed on, and only asking for its end fails.
-/

namespace ByteLexer

/-- A stretch of the source: `length` bytes from byte `start` on. -/
structure Span where
  start : Nat
  length : Nat
  deriving DecidableEq, Repr

namespace Span

/-- The offset just past the last byte of the span. -/
def stop (span : Span) : Except Overflow Nat :=
  Word.add span.start span.length

/-- The span written as `start..stop`. -/
def inspect (span : Span) : Except Overflow String := do
  let stop ← span.stop
  return toString span.start ++ ".." ++ toString stop

end Span

end ByteLexer
