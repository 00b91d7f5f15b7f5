import ByteLexer.Proofs.Scan.Recognition
import ByteLexer.Scan.Scanner

/-!
# Calls of a scanner, on bytes

What one call of `Scanner.next` does is said here once, for a scanner whose
cursor has read ahead: spaces are dropped, and then either nothing is left
and the end of the source is handed out (`next_eq_of_nil`), or the lexeme at
the front of what is left is (`next_eq_of_cons`). All that is proved about
runs goes back to these two.

A run is named by the number of calls: `after n` is the scanner after `n`
calls, `token n` what the call after these hands out. Whatever the number,
the source is the same and the cursor has read ahead.

**What it does not establish.** Nothing is said here of where a run ends, nor of what
its tokens come to when they are taken together. A number of calls is any number, also
one beyond the end of the source, where calls go on handing out that end.
-/

namespace ByteLexer

theorem drop_length_takeWhile (inClass : UInt8 → Bool) (bytes : List UInt8) :
    bytes.drop (bytes.takeWhile inClass).length = bytes.dropWhile inClass := by
  conv => lhs; arg 2; rw [← List.takeWhile_append_dropWhile (p := inClass) (l := bytes)]
  exact List.drop_left

namespace Scanner

variable {scanner : Scanner}

/-- The bytes that the scanner has not taken. -/
def rest (scanner : Scanner) : List UInt8 :=
  scanner.cursor.rest

/-- The offset of the next byte that is no space. -/
def startOffset (scanner : Scanner) : Nat :=
  scanner.offset + (scanner.rest.takeWhile ByteClass.isSpace).length

/-! ## One call -/

theorem skipSpace_eq (h : scanner.cursor.ReadAhead) :
    scanner.cursor.skipWhile CharClass.isSpace = scanner.cursor.moveTo scanner.startOffset := by
  rw [h.skipWhile_eq fun _ => ByteClass.lt_of_isSpace, ByteClass.onBytes_isSpace]
  rfl

theorem rest_skipSpace :
    (scanner.cursor.moveTo scanner.startOffset).rest =
      scanner.rest.dropWhile ByteClass.isSpace := by
  rw [Cursor.rest_moveTo, ← drop_length_takeWhile]
  exact (drop_bytesFrom _ _ _).symm

/-- From there on the source is what is left without the spaces at its front. -/
theorem bytesFrom_startOffset :
    bytesFrom scanner.source scanner.startOffset = scanner.rest.dropWhile ByteClass.isSpace := by
  rw [← rest_skipSpace]
  exact (Cursor.rest_moveTo _ _).symm

/-- No space stands there. -/
theorem isSpace_startOffset {first : UInt8} {more : List UInt8}
    (h : bytesFrom scanner.source scanner.startOffset = first :: more) :
    ByteClass.isSpace first = false := by
  rw [bytesFrom_startOffset] at h
  have hhead := List.head?_dropWhile_not ByteClass.isSpace scanner.rest
  rw [h] at hhead
  exact hhead

/-- Where only spaces are left, the end of the source is handed out. -/
theorem next_eq_of_nil (h : scanner.cursor.ReadAhead)
    (hrest : scanner.rest.dropWhile ByteClass.isSpace = []) :
    scanner.next = (.endOfInput scanner.source.size,
      { scanner with cursor := scanner.cursor.moveTo scanner.source.size }) := by
  have hskip := scanner.cursor.readAhead_moveTo scanner.startOffset
  have hend := hskip.of_rest_eq_nil (rest_skipSpace.trans hrest)
  rw [Cursor.source_moveTo] at hend
  have hmove : scanner.cursor.moveTo scanner.startOffset =
      scanner.cursor.moveTo scanner.cursor.source.size := by
    rw [Cursor.ReadAhead, Cursor.moveTo_moveTo, hend.2.1] at hskip
    exact hskip.symm
  rw [next, skipSpace_eq h]
  rw [Cursor.recognise, hend.1]
  dsimp only
  rw [hend.2.2, hmove]
  rfl

/-- Where something else is left, its lexeme is handed out. -/
theorem next_eq_of_cons (h : scanner.cursor.ReadAhead) {first : UInt8} {more : List UInt8}
    (hrest : scanner.rest.dropWhile ByteClass.isSpace = first :: more) :
    scanner.next =
      (Lexeme.token scanner.startOffset (lexeme scanner.startOffset first more).1,
        { scanner with
          cursor := scanner.cursor.moveTo
            (scanner.startOffset + (lexeme scanner.startOffset first more).2)
          lastCause := (Lexeme.cause? (lexeme scanner.startOffset first more).1).or
            scanner.lastCause }) := by
  have hskip := scanner.cursor.readAhead_moveTo scanner.startOffset
  have hfront := rest_skipSpace.trans hrest
  have hposition : (scanner.cursor.moveTo scanner.startOffset).position = scanner.startOffset := by
    have hlength := hskip.position_add_length
    rw [hfront, List.length_cons, Cursor.position_moveTo, Cursor.source_moveTo] at hlength
    rw [Cursor.position_moveTo]
    omega
  rw [next, skipSpace_eq h]
  rw [hskip.recognise_eq hfront, hposition, Cursor.moveTo_moveTo]
  cases (lexeme scanner.startOffset first more).1 with
  | ok token => rfl
  | error cause => rfl

theorem offset_next_of_nil (h : scanner.cursor.ReadAhead)
    (hrest : scanner.rest.dropWhile ByteClass.isSpace = []) :
    scanner.next.2.offset = scanner.source.size := by
  rw [next_eq_of_nil h hrest]
  exact (Cursor.position_moveTo _ _).trans (Nat.min_self _)

theorem startOffset_of_nil (h : scanner.cursor.ReadAhead)
    (hrest : scanner.rest.dropWhile ByteClass.isSpace = []) :
    scanner.startOffset = scanner.source.size := by
  have hspaces := List.takeWhile_append_dropWhile (p := ByteClass.isSpace) (l := scanner.rest)
  rw [hrest, List.append_nil] at hspaces
  rw [startOffset, hspaces]
  exact h.position_add_length

section Cons

variable {first : UInt8} {more : List UInt8}

/-- Elsewhere a call moves behind the lexeme. -/
theorem offset_next_of_cons (h : scanner.cursor.ReadAhead)
    (hrest : scanner.rest.dropWhile ByteClass.isSpace = first :: more) :
    scanner.next.2.offset =
      scanner.startOffset + (lexeme scanner.startOffset first more).2 := by
  have hlength := size_of_bytesFrom (bytesFrom_startOffset.trans hrest)
  have hsize := lexeme_size scanner.startOffset first more
  rw [next_eq_of_cons h hrest]
  exact (Cursor.position_moveTo _ _).trans (Nat.min_eq_left (by rw [source] at hlength; omega))

theorem rest_next_of_cons (h : scanner.cursor.ReadAhead)
    (hrest : scanner.rest.dropWhile ByteClass.isSpace = first :: more) :
    scanner.next.2.rest = (first :: more).drop (lexeme scanner.startOffset first more).2 := by
  rw [next_eq_of_cons h hrest, ← hrest, ← bytesFrom_startOffset, drop_bytesFrom]
  exact Cursor.rest_moveTo _ _

end Cons

/-- All that a call can do: hand out the end of the source, or a word, or an
error with its cause. Each case says what is handed out, where the scanner stands
afterwards and which cause it keeps; that only an error replaces the cause is part of
it. What is proved of all calls is proved by these three cases. -/
theorem next_cases (h : scanner.cursor.ReadAhead) :
    (scanner.next.1 = .endOfInput scanner.source.size ∧
      scanner.startOffset = scanner.source.size ∧
      scanner.next.2.offset = scanner.source.size ∧
      scanner.next.2.lastCause = scanner.lastCause) ∨
    (∃ kind word, kind.isReserved = false ∧
      Lexeme.IsWord (bytesFrom scanner.source scanner.startOffset) word ∧
      scanner.next.1 = ⟨kind, Utf8.text word, scanner.startOffset⟩ ∧
      scanner.next.2.offset = scanner.startOffset + word.length ∧
      scanner.next.2.lastCause = scanner.lastCause) ∨
    ∃ cause size first more, 0 < size ∧
      bytesFrom scanner.source scanner.startOffset = first :: more ∧
      lexeme scanner.startOffset first more = (.error cause, size) ∧
      scanner.next.1 = .error scanner.startOffset ∧
      scanner.next.2.offset = scanner.startOffset + size ∧
      scanner.next.2.lastCause = some cause := by
  cases hrest : scanner.rest.dropWhile ByteClass.isSpace with
  | nil =>
    left
    rw [offset_next_of_nil h hrest, next_eq_of_nil h hrest]
    exact ⟨rfl, startOffset_of_nil h hrest, rfl, rfl⟩
  | cons first more =>
    right
    rw [bytesFrom_startOffset, hrest, offset_next_of_cons h hrest, next_eq_of_cons h hrest]
    rcases lexeme_cases scanner.startOffset first more with
      ⟨kind, word, hkind, hword, heq⟩ | ⟨cause, size, hpos, -, heq⟩
    · left
      rw [heq]
      exact ⟨kind, word, hkind, hword, rfl, rfl, rfl⟩
    · right
      refine ⟨cause, size, first, more, hpos, rfl, heq, ?_⟩
      rw [heq]
      exact ⟨rfl, rfl, rfl⟩

/-- What is handed out starts behind the spaces. -/
theorem offset_next (h : scanner.cursor.ReadAhead) :
    scanner.next.1.offset = scanner.startOffset := by
  rcases next_cases h with ⟨htoken, hstart, -⟩ | ⟨_, _, -, -, htoken, -⟩ |
    ⟨_, _, _, _, -, -, -, htoken, -⟩
  · rw [htoken, hstart]
    rfl
  · rw [htoken]
  · rw [htoken]
    rfl

/-- A call leaves a cursor that has read ahead, over the same source. -/
theorem readAhead_next (h : scanner.cursor.ReadAhead) : scanner.next.2.cursor.ReadAhead := by
  cases hrest : scanner.rest.dropWhile ByteClass.isSpace with
  | nil =>
    rw [next_eq_of_nil h hrest]
    exact Cursor.readAhead_moveTo _ _
  | cons first more =>
    rw [next_eq_of_cons h hrest]
    exact Cursor.readAhead_moveTo _ _

theorem source_next (h : scanner.cursor.ReadAhead) : scanner.next.2.source = scanner.source := by
  cases hrest : scanner.rest.dropWhile ByteClass.isSpace with
  | nil =>
    rw [next_eq_of_nil h hrest]
    exact Cursor.source_moveTo _ _
  | cons first more =>
    rw [next_eq_of_cons h hrest]
    exact Cursor.source_moveTo _ _

/-! ## Many calls -/

/-- The scanner after `n` calls. -/
def after (scanner : Scanner) : Nat → Scanner
  | 0 => scanner
  | n + 1 => (scanner.after n).next.2

/-- The token that the call after `n` others hands out. -/
def token (scanner : Scanner) (n : Nat) : Token :=
  (scanner.after n).next.1

/-- Whatever the number of calls, the cursor has read ahead. -/
theorem readAhead_after (h : scanner.cursor.ReadAhead) (n : Nat) :
    (scanner.after n).cursor.ReadAhead := by
  induction n with
  | zero => exact h
  | succ n ih => exact readAhead_next ih

theorem source_after (h : scanner.cursor.ReadAhead) (n : Nat) :
    (scanner.after n).source = scanner.source := by
  induction n with
  | zero => rfl
  | succ n ih => exact (source_next (readAhead_after h n)).trans ih

end Scanner

end ByteLexer
