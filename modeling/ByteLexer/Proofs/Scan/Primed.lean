import ByteLexer.Proofs.Scan.Requests
import ByteLexer.Proofs.Utf8.Offsets

/-!
# A scanner is always primed

A cursor that has read ahead is at the end of the source or before a step, and its
fields say which (`ReadAhead.cases`). That it stands where the source would also be
read step by step from the beginning is a second matter (`Visited`). Most moves are
by one step and keep it so. Two are jumps: to the end of the source, and behind a
closing mark, which is found as a byte and without reading what lies before it. As
the mark is a byte below `80`, no step goes beyond it (`visited_recogniseQuote`).

Both hold of the scanner at the beginning of a source and of every one that requests
lead to, so that all of these are `Primed`.

**What it does not establish.** That a cursor is primed says nothing of the causes or of
the mark that a scanner keeps beside it. And it is proved of scanners that requests lead
to: a cursor that is set down in the middle of a character has read ahead, but the source
is not read there.
-/

namespace ByteLexer

/-- A byte that is found is one of those sought, inside the bytes. -/
theorem exists_of_findIdx? {bytes : ByteArray} {p : UInt8 → Bool} {first found : Nat}
    (h : bytes.findIdx? p first = some found) :
    ∃ hlt : found < bytes.size, p bytes[found] = true := by
  unfold ByteArray.findIdx? at h
  fun_induction ByteArray.findIdx?.loop bytes p first with
  | case1 first hlt hp =>
    cases h
    exact ⟨hlt, hp⟩
  | case2 _ _ _ ih => exact ih h
  | case3 => cases h

namespace Cursor

/-- The source is read at the position when it is read step by step from its beginning. -/
def Visited (cursor : Cursor) : Prop :=
  cursor.position ∈ Utf8.offsets cursor.source

/-- What it is to be primed: the cursor is at the end of a source, or it holds what
stands at its position and the offset behind that. -/
structure Primed (source : ByteArray) (cursor : Cursor) : Prop where
  position_le : cursor.position ≤ cursor.next
  next_le : cursor.next ≤ source.size
  current_eq_none_iff : cursor.current = none ↔ cursor.position = source.size
  next_eq : cursor.current = none → cursor.next = source.size
  /-- The reading is that of the bytes from the position on, and as wide. -/
  current : ∀ reading, cursor.current = some reading → cursor.position < cursor.next ∧
    Utf8.readAt (source.extract cursor.position source.size) 0 =
      some ⟨reading, cursor.next - cursor.position⟩
  visited : cursor.position ∈ Utf8.offsets source

variable {cursor : Cursor} {inClass : Char → Bool}

/-- A cursor that has read ahead is at the end, or before a step inside the source. -/
theorem ReadAhead.cases (h : cursor.ReadAhead) :
    (cursor.current = none ∧ cursor.position = cursor.source.size ∧
      cursor.next = cursor.source.size) ∨
    ∃ step, Utf8.readAt cursor.source cursor.position = some step ∧
      cursor.current = some step.reading ∧ cursor.next = cursor.position + step.width ∧
      cursor.position < cursor.next ∧ cursor.next ≤ cursor.source.size := by
  cases hrest : cursor.rest with
  | nil => exact .inl (h.of_rest_eq_nil hrest)
  | cons first more =>
    have hlt : cursor.position < cursor.source.size := by
      have hsize := size_of_bytesFrom hrest
      omega
    obtain ⟨step, hstep⟩ := Utf8.exists_readAt hlt
    obtain ⟨hcurrent, hnext⟩ := h.of_readAt hstep
    have hpos := Utf8.width_pos_of_readAt hstep
    have hle := Utf8.add_width_le_size hstep
    exact .inr ⟨step, hstep, hcurrent, hnext, by omega, by omega⟩

theorem ReadAhead.position_le_next (h : cursor.ReadAhead) : cursor.position ≤ cursor.next := by
  rcases h.cases with ⟨-, hposition, hnext⟩ | ⟨-, -, -, -, hlt, -⟩
  · omega
  · exact Nat.le_of_lt hlt

theorem ReadAhead.next_le (h : cursor.ReadAhead) : cursor.next ≤ cursor.source.size := by
  rcases h.cases with ⟨-, -, hnext⟩ | ⟨-, -, -, -, -, hle⟩
  · omega
  · exact hle

theorem ReadAhead.primed (h : cursor.ReadAhead) (hvisited : cursor.Visited) :
    Primed cursor.source cursor := by
  rcases h.cases with ⟨hcurrent, hposition, hnext⟩ | ⟨step, hstep, hcurrent, hnext, hlt, hle⟩
  · refine ⟨h.position_le_next, h.next_le, iff_of_true hcurrent hposition, fun _ => hnext, ?_,
      hvisited⟩
    intro reading hreading
    rw [hcurrent] at hreading
    cases hreading
  · have hsome : cursor.current ≠ none := by
      rw [hcurrent]
      exact Option.some_ne_none _
    refine ⟨h.position_le_next, h.next_le, iff_of_false hsome (by omega), ?_, ?_, hvisited⟩
    · intro hnone
      exact absurd hnone hsome
    · intro reading hreading
      rw [hcurrent, Option.some.injEq] at hreading
      rw [Utf8.readAt_extract, hstep, hnext, Nat.add_sub_cancel_left, ← hreading]
      exact ⟨by omega, rfl⟩

/-! ## Moves by a step -/

theorem readAhead_skipWhile (h : cursor.ReadAhead) : (cursor.skipWhile inClass).ReadAhead := by
  fun_induction skipWhile inClass cursor with
  | case1 cursor _ ih => exact ih (readAhead_moveTo _ _)
  | case2 => exact h

theorem visited_start (source : ByteArray) : (start source).Visited := by
  rw [Visited, position_start, source_start]
  exact Utf8.mem_offsetsFrom_self

theorem visited_moveTo_size (cursor : Cursor) : (cursor.moveTo cursor.source.size).Visited := by
  rw [Visited, position_moveTo, Nat.min_self, source_moveTo]
  exact Utf8.size_mem_offsets _

theorem visited_advance (h : cursor.ReadAhead) (hvisited : cursor.Visited) :
    cursor.advance.Visited := by
  rcases h.cases with ⟨-, -, hnext⟩ | ⟨step, hstep, -, hnext, -, hle⟩
  · rw [advance, hnext]
    exact visited_moveTo_size cursor
  · rw [Visited, advance, position_moveTo, Nat.min_eq_left hle, source_moveTo, hnext]
    exact Utf8.add_width_mem_offsetsFrom hvisited hstep

theorem visited_skipWhile (h : cursor.ReadAhead) (hvisited : cursor.Visited) :
    (cursor.skipWhile inClass).Visited := by
  fun_induction skipWhile inClass cursor with
  | case1 cursor _ ih => exact ih (readAhead_moveTo _ _) (visited_advance h hvisited)
  | case2 => exact hvisited

/-! ## Jumps -/

/-- Behind a byte that was found below `80` the source is read as well. -/
theorem visited_moveTo_add_one {byte : UInt8} {first found : Nat} (hascii : byte < 0x80)
    (h : cursor.source.findIdx? (· == byte) first = some found) :
    (cursor.moveTo (found + 1)).Visited := by
  obtain ⟨hlt, hbyte⟩ := exists_of_findIdx? h
  rw [Visited, position_moveTo, Nat.min_eq_left hlt, source_moveTo]
  exact Utf8.add_one_mem_offsets hlt (eq_of_beq hbyte ▸ hascii)

/-- Behind a string the source is read, whatever cursor it was recognised from. The mark is a
byte below `80`, so the reading comes by it, though the scanner has not read its way there. -/
theorem visited_recogniseQuote (cursor : Cursor) : cursor.recogniseQuote.2.Visited := by
  unfold recogniseQuote
  split
  · exact visited_moveTo_size cursor
  · rename_i close hclose
    have hafter : (cursor.moveTo (close + 1)).Visited :=
      visited_moveTo_add_one (by decide) hclose
    dsimp only
    split <;> exact hafter

/-! ## Tokens and calls -/

theorem visited_recogniseFrom (h : cursor.ReadAhead) (hvisited : cursor.Visited) (c : Char) :
    (cursor.recogniseFrom c).2.Visited := by
  have hadvance := visited_advance h hvisited
  unfold recogniseFrom
  split
  · exact hadvance
  · split
    · exact visited_skipWhile h hvisited
    · split
      · exact visited_skipWhile h hvisited
      · split
        · exact visited_recogniseQuote cursor
        · exact hadvance

theorem visited_recognise (h : cursor.ReadAhead) (hvisited : cursor.Visited) :
    cursor.recognise.2.Visited := by
  unfold recognise
  split
  · exact hvisited
  · exact visited_advance h hvisited
  · exact visited_recogniseFrom h hvisited _

end Cursor

namespace Scanner

variable {scanner : Scanner}

theorem cursor_next : scanner.next.2.cursor =
    (scanner.cursor.skipWhile CharClass.isSpace).recognise.2 := by
  unfold next
  dsimp only
  split
  · rename_i hrecognise
    rw [hrecognise]
  · rename_i hrecognise
    rw [hrecognise]

theorem visited_next (h : scanner.cursor.ReadAhead) (hvisited : scanner.cursor.Visited) :
    scanner.next.2.cursor.Visited := by
  rw [cursor_next]
  exact Cursor.visited_recognise (Cursor.readAhead_skipWhile h)
    (Cursor.visited_skipWhile h hvisited)

theorem visited_after (h : scanner.cursor.ReadAhead) (hvisited : scanner.cursor.Visited)
    (n : Nat) : (scanner.after n).cursor.Visited := by
  induction n with
  | zero => exact hvisited
  | succ n ih => exact visited_next (readAhead_after h n) ih

/-- Whatever requests have led to it, a scanner is primed. -/
theorem Reachable.primed {source : ByteArray} (h : Reachable source scanner) :
    Cursor.Primed source scanner.cursor := by
  have hvisited : scanner.cursor.Visited := by
    obtain ⟨n, hscanner⟩ := h.exists_after
    rw [hscanner]
    exact visited_after (readAhead_start source) (Cursor.visited_start source) n
  have hprimed := h.readAhead.primed hvisited
  have hsource : scanner.cursor.source = source := h.source_eq
  rw [hsource] at hprimed
  exact hprimed

end Scanner

end ByteLexer
