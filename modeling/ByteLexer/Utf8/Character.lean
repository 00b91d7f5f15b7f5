import ByteLexer.Utf8.Validation

/-!
# UTF-8, one character at a time

`Utf8.readAt` reads what stands at an offset of a source: a character, or
bytes that are no character, and in either case how many bytes that takes.

A byte above `7F` says by itself how many bytes its character has
(`sequenceWidth`), so that many are cut out and validated. If they are a
character it has been read. If not, a window of as many bytes as a character
can have at most is validated once more, for the length of the defect that
it begins with.

The width that comes out in the second case is the longest front of the
bytes there that some character's encoding begins with, and one byte where
there is none. It is the rule by which a damaged text is resynchronised
without swallowing a byte of what follows.
-/

namespace ByteLexer

/-- What stands at a place of the source. -/
inductive Reading where
  | char (c : Char)
  | malformed
  deriving DecidableEq, Repr

namespace Utf8

/-- What one step through the source reads, and over how many bytes. -/
structure Step where
  reading : Reading
  width : Nat
  deriving DecidableEq, Repr

/-- The number of bytes that an encoding has at most. -/
def maxWidth : Nat := 4

/-- The number of bytes of the encodings that begin with a byte; 0 if none do. -/
def sequenceWidth (byte : UInt8) : Nat :=
  if byte < 0x80 then 1
  else if byte < 0xC2 then 0
  else if byte < 0xE0 then 2
  else if byte < 0xF0 then 3
  else if byte < 0xF5 then maxWidth
  else 0

/-- The first character of `width` bytes at `offset`, if there are as many
and they are valid throughout. -/
def character? (source : ByteArray) (offset width : Nat) : Option Char :=
  if offset + width ≤ source.size then
    match validate (source.extract offset (offset + width)) with
    | .ok text => text.toList.head?
    | .error _ => none
  else none

/-- The length of the defect that a window on the source begins with. -/
def malformedWidth (window : ByteArray) : Nat :=
  match validate window with
  | .ok _ => 1
  | .error defect => max (defect.length.getD window.size) 1

/-- Reads what begins at `offset` with the byte `first`, above `7F`. -/
def multibyteAt (source : ByteArray) (offset : Nat) (first : UInt8) : Step :=
  let width := sequenceWidth first
  match character? source offset width with
  | some c => ⟨.char c, width⟩
  | none => ⟨.malformed, malformedWidth (source.extract offset (offset + maxWidth))⟩

/-- Reads what stands at `offset`; nothing does at or beyond the end. -/
def readAt (source : ByteArray) (offset : Nat) : Option Step :=
  if h : offset < source.size then
    let first := source[offset]
    if first < 0x80 then some ⟨.char (Char.ofNat first.toNat), 1⟩
    else some (multibyteAt source offset first)
  else none

/-- No bytes hold no character. -/
theorem character?_zero (source : ByteArray) (offset : Nat) :
    character? source offset 0 = none := by
  have hempty : source.extract offset (offset + 0) = ByteArray.empty := by simp
  unfold character?
  rw [hempty]
  split <;> rfl

/-- A malformed front has a byte at least. -/
theorem malformedWidth_pos (window : ByteArray) : 0 < malformedWidth window := by
  unfold malformedWidth
  split <;> omega

/-- Every step moves on. -/
theorem multibyteAt_width_pos (source : ByteArray) (offset : Nat) (first : UInt8) :
    0 < (multibyteAt source offset first).width := by
  unfold multibyteAt
  dsimp only
  split
  · rename_i c hc
    refine Nat.pos_of_ne_zero fun hzero => ?_
    have hzero : sequenceWidth first = 0 := hzero
    rw [hzero, character?_zero] at hc
    cases hc
  · exact malformedWidth_pos _

/-- Every step through the source moves on. -/
theorem width_pos_of_readAt {source : ByteArray} {offset : Nat} {step : Step}
    (h : readAt source offset = some step) : 0 < step.width := by
  unfold readAt at h
  split at h
  · dsimp only at h
    split at h <;> cases h
    · exact Nat.one_pos
    · exact multibyteAt_width_pos _ _ _
  · cases h

end Utf8

end ByteLexer
