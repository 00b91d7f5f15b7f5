import ByteLexer.Proofs.Utf8.Decoding
import ByteLexer.Scan.Cursor

/-!
# Cursors that have read ahead

A cursor keeps what it has read beside the offsets. `ReadAhead` says that
the two agree: moving the cursor to where it stands changes nothing. Cursors
that have read ahead are then known by their source and their position, and
everything they do can be said about the bytes from there on (`rest`).

The one loop over a cursor is `skipWhile`. On bytes it is `takeWhile`, since
every class of the scanner is ASCII and each character skipped is one byte
(`skipWhile_eq`).

**What it does not establish.** A cursor put together field by field need not have
read ahead, and of such a one nothing is said. Nor does having read ahead say that
the cursor stands where a reading from the beginning would come: it may stand in the
middle of a character, and has then read what stands there.
-/

namespace ByteLexer

/-- A class of ASCII characters, as a class of bytes. -/
def onBytes (inClass : Char → Bool) (byte : UInt8) : Bool :=
  byte < 0x80 && inClass (Char.ofNat byte.toNat)

namespace Cursor

/-- The bytes that the cursor has not passed. -/
def rest (cursor : Cursor) : List UInt8 :=
  bytesFrom cursor.source cursor.position

/-- What the cursor has read is what stands at its position: moving it there
changes nothing. This is the one invariant of cursors on which the rest is built, and
every cursor that is started or moved has it. -/
def ReadAhead (cursor : Cursor) : Prop :=
  cursor.moveTo cursor.position = cursor

/-! ## Moving -/

/-- Where a cursor is moved to does not depend on where it was. -/
@[simp] theorem moveTo_moveTo (cursor : Cursor) (first second : Nat) :
    (cursor.moveTo first).moveTo second = cursor.moveTo second := by
  have hsource := cursor.source_moveTo first
  simp only [moveTo] at hsource ⊢
  rw [hsource]

@[simp] theorem position_moveTo (cursor : Cursor) (offset : Nat) :
    (cursor.moveTo offset).position = min offset cursor.source.size := by
  unfold moveTo
  cases hread : Utf8.readAt cursor.source offset with
  | none =>
    have hle : ¬offset < cursor.source.size := by
      intro hlt
      simp [Utf8.readAt, hlt] at hread
      split at hread <;> cases hread
    exact (Nat.min_eq_right (Nat.not_lt.1 hle)).symm
  | some step =>
    have hlt : offset < cursor.source.size := by
      unfold Utf8.readAt at hread
      split at hread
      · assumption
      · cases hread
    exact (Nat.min_eq_left (Nat.le_of_lt hlt)).symm

theorem moveTo_of_le {cursor : Cursor} {offset : Nat} (h : cursor.source.size ≤ offset) :
    cursor.moveTo offset = cursor.moveTo cursor.source.size := by
  have hnone : ∀ n, cursor.source.size ≤ n → Utf8.readAt cursor.source n = none := by
    intro n hn
    exact dif_neg (Nat.not_lt.2 hn)
  simp only [moveTo, hnone offset h, hnone _ (Nat.le_refl _)]

@[simp] theorem rest_moveTo (cursor : Cursor) (offset : Nat) :
    (cursor.moveTo offset).rest = bytesFrom cursor.source offset := by
  rw [rest, source_moveTo, position_moveTo]
  by_cases h : offset ≤ cursor.source.size
  · rw [Nat.min_eq_left h]
  · have h : cursor.source.size ≤ offset := by omega
    rw [Nat.min_eq_right h, bytesFrom_of_le h, bytesFrom_of_le (Nat.le_refl _)]

/-- A cursor that has been moved has read ahead. -/
theorem readAhead_moveTo (cursor : Cursor) (offset : Nat) : (cursor.moveTo offset).ReadAhead := by
  rw [ReadAhead, moveTo_moveTo, position_moveTo]
  by_cases h : offset ≤ cursor.source.size
  · rw [Nat.min_eq_left h]
  · rw [Nat.min_eq_right (by omega), moveTo_of_le (Nat.le_of_not_le h)]

theorem readAhead_start (source : ByteArray) : (start source).ReadAhead :=
  readAhead_moveTo _ _

@[simp] theorem source_start (source : ByteArray) : (start source).source = source :=
  source_moveTo _ _

@[simp] theorem position_start (source : ByteArray) : (start source).position = 0 := by
  rw [start, position_moveTo, Nat.zero_min]

namespace ReadAhead

variable {cursor : Cursor}

theorem position_le (h : cursor.ReadAhead) : cursor.position ≤ cursor.source.size := by
  have hposition := cursor.position_moveTo cursor.position
  rw [h] at hposition
  omega

theorem position_add_length (h : cursor.ReadAhead) :
    cursor.position + cursor.rest.length = cursor.source.size := by
  have := h.position_le
  rw [rest, length_bytesFrom]
  omega

/-! ## What has been read -/

/-- At the end nothing has been read. -/
theorem of_rest_eq_nil (h : cursor.ReadAhead) (hrest : cursor.rest = []) :
    cursor.current = none ∧ cursor.position = cursor.source.size ∧
      cursor.next = cursor.source.size := by
  have hlength := h.position_add_length
  rw [hrest, List.length_nil, Nat.add_zero] at hlength
  have hnone : Utf8.readAt cursor.source cursor.position = none := dif_neg (by omega)
  rw [← h]
  simp only [moveTo, hnone, and_self]

theorem of_readAt (h : cursor.ReadAhead) {step : Utf8.Step}
    (hstep : Utf8.readAt cursor.source cursor.position = some step) :
    cursor.current = some step.reading ∧ cursor.next = cursor.position + step.width := by
  have hcursor := h
  simp only [ReadAhead, moveTo, hstep] at hcursor
  exact ⟨(congrArg current hcursor).symm, (congrArg next hcursor).symm⟩

/-- Where an encoding stands its character has been read. -/
theorem of_encode_prefix (h : cursor.ReadAhead) {c : Char}
    (hc : String.utf8EncodeChar c <+: cursor.rest) :
    cursor.current = some (.char c) ∧ cursor.next = cursor.position + c.utf8Size :=
  h.of_readAt (Utf8.readAt_of_encode_prefix hc)

/-- Where none stands a malformed front has been read. -/
theorem of_not_begins (h : cursor.ReadAhead) (hne : cursor.rest ≠ [])
    (hbegins : ¬Utf8.Begins cursor.rest) :
    cursor.current = some .malformed ∧
      cursor.next = cursor.position + Utf8.malformedLength cursor.rest := by
  have hlength := h.position_add_length
  have hpos := List.length_pos_iff.2 hne
  exact h.of_readAt (Utf8.readAt_of_not_begins (by omega) hbegins)

/-- Where a byte below `80` stands it has been read as a character. -/
theorem of_ascii (h : cursor.ReadAhead) {first : UInt8} {more : List UInt8}
    (hrest : cursor.rest = first :: more) (hascii : first < 0x80) :
    cursor.current = some (.char (Char.ofNat first.toNat)) ∧
      cursor.next = cursor.position + 1 := by
  have hc : String.utf8EncodeChar (Char.ofNat first.toNat) <+: cursor.rest := by
    rw [hrest, Utf8.encode_ofNat hascii]
    exact List.prefix_append [_] _
  have hread := h.of_encode_prefix hc
  rw [← String.length_utf8EncodeChar, Utf8.encode_ofNat hascii] at hread
  exact hread

/-- Where a higher byte stands no ASCII character has been read. -/
theorem not_lt_of_not_ascii (h : cursor.ReadAhead) {first : UInt8} {more : List UInt8}
    (hrest : cursor.rest = first :: more) (hascii : ¬first < 0x80) {c : Char}
    (hc : cursor.character? = some c) : ¬c.val < 0x80 := by
  intro hlt
  by_cases hbegins : Utf8.Begins cursor.rest
  · obtain ⟨d, hd⟩ := hbegins
    rw [character?, (h.of_encode_prefix hd).1] at hc
    cases hc
    obtain ⟨byte, hbyte, hencode⟩ := Utf8.exists_encode_of_lt hlt
    rw [hrest] at hd
    obtain ⟨bytes, hbytes⟩ := Utf8.exists_encode_eq_cons hd
    rw [hencode] at hbytes
    exact hascii ((List.cons.inj hbytes).1 ▸ hbyte)
  · have hne : cursor.rest ≠ [] := by
      rw [hrest]
      exact List.cons_ne_nil _ _
    rw [character?, (h.of_not_begins hne hbegins).1] at hc
    cases hc

/-- A cursor stands in a class of ASCII characters when the next byte is in it. -/
theorem any_character? (h : cursor.ReadAhead) {inClass : Char → Bool}
    (hclass : ∀ c, inClass c = true → c.val < 0x80) :
    cursor.character?.any inClass = cursor.rest.head?.any (onBytes inClass) := by
  cases hrest : cursor.rest with
  | nil => rw [character?, (h.of_rest_eq_nil hrest).1]; rfl
  | cons first more =>
    rw [List.head?_cons, Option.any_some]
    by_cases hascii : first < 0x80
    · rw [character?, (h.of_ascii hrest hascii).1, onBytes, decide_eq_true hascii, Bool.true_and]
      rfl
    · rw [onBytes, decide_eq_false hascii, Bool.false_and]
      cases hc : cursor.character? with
      | none => rfl
      | some c =>
        rw [Option.any_some, Bool.eq_false_iff]
        intro hin
        exact h.not_lt_of_not_ascii hrest hascii hc (hclass c hin)

/-- Skipping a class skips the bytes of the class. The class has to be one of
ASCII characters: then each character that is skipped is one byte, and whatever is
read at a byte above `7F` ends the run. -/
theorem skipWhile_eq (h : cursor.ReadAhead) {inClass : Char → Bool}
    (hclass : ∀ c, inClass c = true → c.val < 0x80) :
    cursor.skipWhile inClass =
      cursor.moveTo (cursor.position + (cursor.rest.takeWhile (onBytes inClass)).length) := by
  -- on the loop itself: a step takes one byte off the run, and the next cursor has read ahead
  fun_induction skipWhile inClass cursor with
  | case1 cursor hany ih =>
    rw [h.any_character? hclass] at hany
    cases hrest : cursor.rest with
    | nil =>
      rw [hrest] at hany
      cases hany
    | cons first more =>
      rw [hrest, List.head?_cons, Option.any_some] at hany
      have hascii : first < 0x80 := by
        rw [onBytes, Bool.and_eq_true] at hany
        exact of_decide_eq_true hany.1
      have hadvance : cursor.advance = cursor.moveTo (cursor.position + 1) := by
        rw [advance, (h.of_ascii hrest hascii).2]
      have hmore : cursor.advance.rest = more := by
        rw [hadvance, rest_moveTo]
        exact bytesFrom_add_one hrest
      have hposition : cursor.advance.position = cursor.position + 1 := by
        have hlength := h.position_add_length
        rw [hrest, List.length_cons] at hlength
        rw [hadvance, position_moveTo]
        omega
      rw [ih (hadvance ▸ readAhead_moveTo _ _), hmore, hposition, hadvance, moveTo_moveTo,
        List.takeWhile_cons_of_pos hany, List.length_cons, Nat.add_assoc, Nat.add_comm 1]
  | case2 cursor hany =>
    rw [h.any_character? hclass] at hany
    have hnil : cursor.rest.takeWhile (onBytes inClass) = [] := by
      cases hrest : cursor.rest with
      | nil => rfl
      | cons first more =>
        rw [hrest, List.head?_cons, Option.any_some] at hany
        exact List.takeWhile_cons_of_neg hany
    rw [hnil]
    exact h.symm

end ReadAhead

end Cursor

end ByteLexer
