import ByteLexer.Proofs.Utf8.Defect

/-!
# Reading a character is exact

`Utf8.readAt` announces a width from the first byte, validates so many bytes,
and falls back on a window of four. `readAt_exact` says that for all bytes
these steps come to one rule: an encoding that stands at the offset is read
as its character, and where none stands the malformed front of the bytes
from there on is passed over.

The bytes from an offset on are a list (`bytesFrom`), so that "stands at"
is a statement about a front of that list.

**What it does not establish.** The rule is about one offset. At which offsets a
source is read is the matter of `ByteLexer.Proofs.Utf8.Offsets`, and that a scanner
reads at these is proved where its cursor is (`ByteLexer.Proofs.Scan.Primed`).
-/

namespace ByteLexer

/-! ## The bytes from an offset on -/

/-- The bytes of a source from an offset on; none beyond the end. -/
def bytesFrom (source : ByteArray) (offset : Nat) : List UInt8 :=
  source.data.toList.drop offset

@[simp] theorem length_bytesFrom (source : ByteArray) (offset : Nat) :
    (bytesFrom source offset).length = source.size - offset := by
  rw [bytesFrom, List.length_drop, Array.length_toList]
  rfl

@[simp] theorem drop_bytesFrom (source : ByteArray) (offset n : Nat) :
    (bytesFrom source offset).drop n = bytesFrom source (offset + n) :=
  List.drop_drop

theorem bytesFrom_of_le {source : ByteArray} {offset : Nat} (h : source.size ≤ offset) :
    bytesFrom source offset = [] :=
  List.drop_eq_nil_of_le h

/-- The byte at an offset, and the bytes after it. -/
theorem bytesFrom_of_lt {source : ByteArray} {offset : Nat} (h : offset < source.size) :
    bytesFrom source offset = source[offset] :: bytesFrom source (offset + 1) :=
  List.drop_eq_getElem_cons (l := source.data.toList) h

section Cons

variable {source : ByteArray} {offset : Nat} {first : UInt8} {more : List UInt8}

theorem bytesFrom_add_one (h : bytesFrom source offset = first :: more) :
    bytesFrom source (offset + 1) = more := by
  rw [← drop_bytesFrom, h]
  rfl

theorem size_of_bytesFrom (h : bytesFrom source offset = first :: more) :
    source.size = offset + (more.length + 1) := by
  have hlength := congrArg List.length h
  rw [length_bytesFrom, List.length_cons] at hlength
  omega

end Cons

theorem bytesFrom_ne_nil {source : ByteArray} {offset : Nat} (h : offset < source.size) :
    bytesFrom source offset ≠ [] := by
  rw [bytesFrom_of_lt h]
  exact List.cons_ne_nil _ _

theorem toByteArray_toList (source : ByteArray) : source.data.toList.toByteArray = source :=
  ByteArray.ext (Array.toList_inj.1 List.toList_data_toByteArray)

/-- A stretch of a source is a front of the bytes from its first offset on. -/
theorem extract_eq (source : ByteArray) (first last : Nat) :
    source.extract first last = ((bytesFrom source first).take (last - first)).toByteArray := by
  refine ByteArray.ext (Array.toList_inj.1 ?_)
  rw [List.toList_data_toByteArray, ByteArray.data_extract, Array.toList_extract]
  rfl

/-- What follows an offset, taken by itself, begins there. -/
theorem bytesFrom_extract (source : ByteArray) (offset : Nat) :
    bytesFrom (source.extract offset source.size) 0 = bytesFrom source offset := by
  rw [extract_eq, ← length_bytesFrom, List.take_length]
  exact List.toList_data_toByteArray

namespace Utf8

/-- A source is valid when nothing of its bytes is left. -/
theorem isValidUTF8_iff_bytesFrom {source : ByteArray} :
    source.IsValidUTF8 ↔ undecoded (bytesFrom source 0) = [] := by
  rw [← isValidUTF8_iff_undecoded, bytesFrom, List.drop_zero, toByteArray_toList]

/-! ## The two attempts -/

/-- The attempt at as many bytes as announced gives a character only where
its encoding stands. -/
theorem encode_prefix_of_character? {source : ByteArray} {offset width : Nat} {c : Char}
    (h : character? source offset width = some c) :
    String.utf8EncodeChar c <+: bytesFrom source offset := by
  unfold character? at h
  rw [extract_eq, Nat.add_sub_cancel_left, validate_eq] at h
  split at h
  · obtain ⟨cs, hcs, -⟩ := exists_eq_encodeAll ((bytesFrom source offset).take width)
    cases hleft : undecoded ((bytesFrom source offset).take width) with
    | nil =>
      rw [hleft, List.append_nil] at hcs
      rw [hleft] at h
      dsimp only at h
      rw [hcs, text_encodeAll, String.toList_ofList] at h
      obtain ⟨more, rfl⟩ := List.head?_eq_some_iff.1 h
      have hfront : String.utf8EncodeChar c <+: (bytesFrom source offset).take width := by
        rw [hcs]
        exact List.prefix_append _ _
      exact hfront.trans (List.take_prefix _ _)
    | cons byte left =>
      rw [hleft] at h
      cases h
  · cases h

/-- The attempt at as many bytes as an encoding has gives its character. -/
theorem character?_of_encode_prefix {source : ByteArray} {offset : Nat} {c : Char}
    (h : String.utf8EncodeChar c <+: bytesFrom source offset) :
    character? source offset c.utf8Size = some c := by
  have hlength := h.length_le
  have hpos := c.utf8Size_pos
  rw [String.length_utf8EncodeChar, length_bytesFrom] at hlength
  have hfront : (bytesFrom source offset).take c.utf8Size = encodeAll [c] := by
    obtain ⟨rest, hrest⟩ := h
    rw [← hrest, List.take_left' (String.length_utf8EncodeChar c), encodeAll_cons, encodeAll_nil,
      List.append_nil]
  have hleft : undecoded (encodeAll [c]) = [] :=
    isValidUTF8_iff_undecoded.1 (isValidUTF8_iff.2 ⟨[c], rfl⟩)
  unfold character?
  rw [if_pos (by omega), extract_eq, Nat.add_sub_cancel_left, hfront, validate_eq, hleft]
  dsimp only
  rw [text_encodeAll, String.toList_ofList, List.head?_cons]

/-- The window gives the malformed front, with a length or without one. -/
theorem malformedWidth_of_not_begins {window : List UInt8} (hne : window ≠ [])
    (h : ¬Begins window) : malformedWidth window.toByteArray = malformedLength window := by
  unfold malformedWidth
  rw [validate_of_ne_nil (undecoded_of_not_begins h) hne]
  dsimp only
  rw [List.size_toByteArray, getD_malformedLength hne, Nat.max_eq_left (malformedLength_pos _)]

/-! ## The rule -/

/-- An encoding that stands at the offset is read as its character. -/
theorem readAt_of_encode_prefix {source : ByteArray} {offset : Nat} {c : Char}
    (h : String.utf8EncodeChar c <+: bytesFrom source offset) :
    readAt source offset = some ⟨.char c, c.utf8Size⟩ := by
  have hlt : offset < source.size := by
    have hlength := h.length_le
    have hpos := c.utf8Size_pos
    rw [String.length_utf8EncodeChar, length_bytesFrom] at hlength
    omega
  unfold readAt
  rw [dif_pos hlt]
  dsimp only
  by_cases hascii : source[offset] < 0x80
  · have hchar : String.utf8EncodeChar (Char.ofNat source[offset].toNat) <+:
        bytesFrom source offset := by
      rw [encode_ofNat hascii, bytesFrom_of_lt hlt]
      exact List.prefix_append [_] _
    obtain rfl := encode_prefix_unique h hchar
    rw [if_pos hascii, ← String.length_utf8EncodeChar, encode_ofNat hascii, List.length_singleton]
  · have hwidth : sequenceWidth source[offset] = c.utf8Size := by
      have hfront := h
      rw [bytesFrom_of_lt hlt] at hfront
      obtain ⟨more, hc⟩ := exists_encode_eq_cons hfront
      exact sequenceWidth_of_encode hc
    rw [if_neg hascii, multibyteAt, hwidth, character?_of_encode_prefix h]

/-- Where no encoding stands, the malformed front is passed over. A window of
four bytes is enough to find it, since no front is longer; but the attempt at as many
bytes as announced has to fail first, and it does, since it can only succeed with an
encoding. -/
theorem readAt_of_not_begins {source : ByteArray} {offset : Nat} (hlt : offset < source.size)
    (h : ¬Begins (bytesFrom source offset)) :
    readAt source offset = some ⟨.malformed, malformedLength (bytesFrom source offset)⟩ := by
  have hascii : ¬source[offset] < 0x80 := by
    intro hascii
    rw [bytesFrom_of_lt hlt, begins_cons_iff] at h
    exact h (.inl hascii)
  have hnone : character? source offset (sequenceWidth source[offset]) = none := by
    rw [Option.eq_none_iff_forall_ne_some]
    intro c hc
    exact h ⟨c, encode_prefix_of_character? hc⟩
  -- the window begins with no encoding either, and holds all of the malformed front
  have hwindow : ¬Begins ((bytesFrom source offset).take maxWidth) := by
    intro hbegins
    have hbegins := hbegins.append ((bytesFrom source offset).drop maxWidth)
    rw [List.take_append_drop] at hbegins
    exact h hbegins
  have hne : (bytesFrom source offset).take maxWidth ≠ [] := by
    rw [bytesFrom_of_lt hlt]
    exact List.cons_ne_nil _ _
  unfold readAt
  rw [dif_pos hlt]
  dsimp only
  rw [if_neg hascii, multibyteAt, hnone, extract_eq, Nat.add_sub_cancel_left]
  dsimp only
  rw [malformedWidth_of_not_begins hne hwindow,
    malformedLength_take (malformedLength_le_maxWidth _)]

/-- **Reading is exact.** At an offset inside the source one step is read,
and:

- an encoding that stands there is read as its character, over its width;
- a character is read only over its encoding;
- where no encoding stands, the step is malformed and as wide as the longest
  front that is a front of some encoding, and no less than one byte;
- the step has one byte at least, and no more than four or than there are.

The offset may be any at all. In the middle of a character stand its later bytes,
with which no encoding begins, and so they are malformed when read from there. -/
theorem readAt_exact (source : ByteArray) (offset : Nat) (h : offset < source.size) :
    ∃ step, readAt source offset = some step ∧
      (∀ c, String.utf8EncodeChar c <+: bytesFrom source offset →
        step = ⟨.char c, (String.utf8EncodeChar c).length⟩) ∧
      (∀ c, step.reading = .char c →
        (bytesFrom source offset).take step.width = String.utf8EncodeChar c) ∧
      ((¬∃ c, String.utf8EncodeChar c <+: bytesFrom source offset) →
        step = ⟨.malformed, max 1 (longestFront (bytesFrom source offset))⟩) ∧
      1 ≤ step.width ∧ step.width ≤ min 4 (bytesFrom source offset).length := by
  by_cases hbegins : Begins (bytesFrom source offset)
  · obtain ⟨c, hc⟩ := hbegins
    have hlength := hc.length_le
    rw [String.length_utf8EncodeChar] at hlength
    refine ⟨_, readAt_of_encode_prefix hc, ?_, ?_, ?_, c.utf8Size_pos,
      Nat.le_min.2 ⟨c.utf8Size_le_four, hlength⟩⟩
    · intro d hd
      rw [encode_prefix_unique hc hd, String.length_utf8EncodeChar]
    · intro d hd
      cases hd
      obtain ⟨rest, hrest⟩ := hc
      rw [← hrest]
      exact List.take_left' (String.length_utf8EncodeChar c)
    · intro hnone
      exact absurd ⟨c, hc⟩ hnone
  · have hlength := malformedLength_le_length (bytesFrom_ne_nil h)
    refine ⟨_, readAt_of_not_begins h hbegins, ?_, ?_, ?_, malformedLength_pos _,
      Nat.le_min.2 ⟨malformedLength_le_maxWidth _, hlength⟩⟩
    · intro c hc
      exact absurd ⟨c, hc⟩ hbegins
    · intro c hc
      cases hc
    · intro _
      rfl

/-- Two bytes of a character that an ASCII letter cuts short are one step. -/
theorem readAt_cut_short : 0 < (ByteArray.mk #[0xE6, 0x9C, 0x61]).size ∧
    readAt ⟨#[0xE6, 0x9C, 0x61]⟩ 0 = some ⟨.malformed, 2⟩ := by
  have hsize : 0 < (ByteArray.mk #[0xE6, 0x9C, 0x61]).size := by decide
  have hbegins : ¬Begins [0xE6, 0x9C, 0x61] := by decide +kernel
  have hfront : longestFront [0xE6, 0x9C, 0x61] = 2 := by decide +kernel
  obtain ⟨step, hstep, -, -, hmalformed, -⟩ := readAt_exact _ 0 hsize
  have hbytes : bytesFrom ⟨#[0xE6, 0x9C, 0x61]⟩ 0 = [0xE6, 0x9C, 0x61] := rfl
  rw [hbytes, hfront] at hmalformed
  refine ⟨hsize, ?_⟩
  rw [hstep, hmalformed hbegins]
  rfl

end Utf8

end ByteLexer
