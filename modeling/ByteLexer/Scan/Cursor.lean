import ByteLexer.Utf8.Character

/-!
# Cursors

A cursor stands at a place of the source and has already read what stands
there: `current` is that reading, `position` the offset it begins at and
`next` the offset just after it. At the end of the source there is nothing
to read, and both offsets are the length of the source.

Nothing ties the fields together in the type. `Cursor.start`, `advance` and
`moveTo` produce cursors that are read ahead in this sense, and loops over a
cursor end because `advance` always lessens `remaining`, whatever cursor it
is given (`remaining_advance_lt`).
-/

namespace ByteLexer

/-- A place in a source, with what has been read there. -/
structure Cursor where
  source : ByteArray
  current : Option Reading
  position : Nat
  next : Nat

namespace Cursor

/-- The cursor that has read what stands at `offset`. -/
def moveTo (cursor : Cursor) (offset : Nat) : Cursor :=
  match Utf8.readAt cursor.source offset with
  | some step => ⟨cursor.source, some step.reading, offset, offset + step.width⟩
  | none => ⟨cursor.source, none, cursor.source.size, cursor.source.size⟩

/-- The cursor at the beginning of a source. -/
def start (source : ByteArray) : Cursor :=
  moveTo ⟨source, none, 0, 0⟩ 0

/-- The cursor at the place after this one. -/
def advance (cursor : Cursor) : Cursor :=
  cursor.moveTo cursor.next

/-- Whether the whole source has been read. -/
def isExhausted (cursor : Cursor) : Bool :=
  cursor.current.isNone

/-- The character that the cursor stands at, if it stands at one. -/
def character? (cursor : Cursor) : Option Char :=
  match cursor.current with
  | some (.char c) => some c
  | _ => none

/-- A bound on how often the cursor can still move. -/
def remaining (cursor : Cursor) : Nat :=
  match cursor.current with
  | some _ => cursor.source.size - cursor.next + 1
  | none => 0

/-- Moving keeps the source. -/
@[simp] theorem source_moveTo (cursor : Cursor) (offset : Nat) :
    (cursor.moveTo offset).source = cursor.source := by
  unfold moveTo
  split <;> rfl

/-- Moving to an offset from `next` on lessens what remains. -/
theorem remaining_moveTo_lt {cursor : Cursor} {offset : Nat} (h : cursor.current.isSome)
    (hnext : cursor.next ≤ offset) : (cursor.moveTo offset).remaining < cursor.remaining := by
  obtain ⟨reading, hcurrent⟩ := Option.isSome_iff_exists.1 h
  have hbefore : cursor.remaining = cursor.source.size - cursor.next + 1 := by
    simp [remaining, hcurrent]
  unfold moveTo
  split
  · rename_i step hstep
    have hwidth := Utf8.width_pos_of_readAt hstep
    have hoffset : offset < cursor.source.size := by
      unfold Utf8.readAt at hstep
      split at hstep
      · assumption
      · cases hstep
    rw [hbefore]
    simp only [remaining]
    omega
  · simp [remaining, hcurrent]

/-- Moving on lessens what remains. -/
theorem remaining_advance_lt {cursor : Cursor} (h : cursor.current.isSome) :
    cursor.advance.remaining < cursor.remaining :=
  remaining_moveTo_lt h (Nat.le_refl _)

/-- A cursor that stands at a character of some class has something left to read. -/
theorem isSome_current_of_any {cursor : Cursor} {inClass : Char → Bool}
    (h : cursor.character?.any inClass) : cursor.current.isSome := by
  unfold character? at h
  split at h <;> simp_all

/-- The cursor after all characters of a class that follow. -/
def skipWhile (inClass : Char → Bool) (cursor : Cursor) : Cursor :=
  if _h : cursor.character?.any inClass then skipWhile inClass cursor.advance else cursor
termination_by cursor.remaining
decreasing_by exact remaining_advance_lt (isSome_current_of_any _h)

/-- Skipping never adds to what remains. -/
theorem remaining_skipWhile_le (inClass : Char → Bool) (cursor : Cursor) :
    (cursor.skipWhile inClass).remaining ≤ cursor.remaining := by
  fun_induction skipWhile inClass cursor with
  | case1 cursor h ih =>
    exact Nat.le_trans ih (Nat.le_of_lt (remaining_advance_lt (isSome_current_of_any h)))
  | case2 => exact Nat.le_refl _

/-- Skipping a class that the cursor stands in lessens what remains. -/
theorem remaining_skipWhile_lt {inClass : Char → Bool} {cursor : Cursor}
    (h : cursor.character?.any inClass) :
    (cursor.skipWhile inClass).remaining < cursor.remaining := by
  rw [skipWhile, dif_pos h]
  exact Nat.lt_of_le_of_lt (remaining_skipWhile_le _ _)
    (remaining_advance_lt (isSome_current_of_any h))

/-- The text between two offsets of the source, which has to be UTF-8. -/
def textBetween (cursor : Cursor) (first last : Nat) : String :=
  (String.fromUTF8? (cursor.source.extract first last)).getD ""

end Cursor

end ByteLexer
