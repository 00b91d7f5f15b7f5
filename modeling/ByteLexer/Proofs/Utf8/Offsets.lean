import ByteLexer.Proofs.Utf8.Decoding

/-!
# The offsets of a reading

A source read one step after the other, characters and malformed fronts alike,
is read at certain offsets and at no others (`offsetsFrom`). The last of them is
the length of the source (`getLast?_offsetsFrom`).

A byte below `80` is always read by itself. It is no later byte of a character,
nor of a malformed front, so no step that begins before it goes beyond it
(`add_width_le`). A search for such a byte may therefore pass over all that stands
before it unread, and comes out where the reading would have come as well
(`mem_offsetsFrom`).

**What it does not establish.** Of a byte above `7F` nothing of the kind is true: it
may lie inside a step, and a search for it could come out where no reading does. Nor
are the offsets boundaries between characters, unless the source is valid.
-/

namespace ByteLexer

namespace Utf8

/-! ## Steps -/

theorem lt_of_readAt {source : ByteArray} {offset : Nat} {step : Step}
    (h : readAt source offset = some step) : offset < source.size := by
  by_contra hle
  rw [readAt, dif_neg hle] at h
  cases h

/-- Something is read at every offset inside the source. -/
theorem exists_readAt {source : ByteArray} {offset : Nat} (h : offset < source.size) :
    ∃ step, readAt source offset = some step := by
  by_cases hbegins : Begins (bytesFrom source offset)
  · obtain ⟨c, hc⟩ := hbegins
    exact ⟨_, readAt_of_encode_prefix hc⟩
  · exact ⟨_, readAt_of_not_begins h hbegins⟩

/-- A step reads a character over its encoding, or passes over a malformed front. -/
theorem readAt_cases {source : ByteArray} {offset : Nat} {step : Step}
    (h : readAt source offset = some step) :
    (∃ c, String.utf8EncodeChar c <+: bytesFrom source offset ∧ step = ⟨.char c, c.utf8Size⟩) ∨
      ¬Begins (bytesFrom source offset) ∧
        step = ⟨.malformed, malformedLength (bytesFrom source offset)⟩ := by
  by_cases hbegins : Begins (bytesFrom source offset)
  · obtain ⟨c, hc⟩ := hbegins
    rw [Utf8.readAt_of_encode_prefix hc, Option.some.injEq] at h
    exact .inl ⟨c, hc, h.symm⟩
  · rw [readAt_of_not_begins (lt_of_readAt h) hbegins, Option.some.injEq] at h
    exact .inr ⟨hbegins, h.symm⟩

/-- What stands at an offset stands at the front of the bytes from there on. -/
theorem readAt_extract (source : ByteArray) (offset : Nat) :
    readAt (source.extract offset source.size) 0 = readAt source offset := by
  have hbytes := bytesFrom_extract source offset
  have hsize := congrArg List.length hbytes
  rw [length_bytesFrom, length_bytesFrom, Nat.sub_zero] at hsize
  by_cases hlt : offset < source.size
  · by_cases hbegins : Begins (bytesFrom source offset)
    · obtain ⟨c, hc⟩ := hbegins
      rw [Utf8.readAt_of_encode_prefix hc, Utf8.readAt_of_encode_prefix (hbytes ▸ hc)]
    · rw [readAt_of_not_begins hlt hbegins,
        readAt_of_not_begins (by omega) (hbytes ▸ hbegins), hbytes]
  · rw [readAt, dif_neg (by omega), readAt, dif_neg hlt]

/-- A step takes the bytes of a front of some encoding, or one byte. -/
theorem isFront_take_width {source : ByteArray} {offset : Nat} {step : Step}
    (h : readAt source offset = some step) :
    step.width ≤ (bytesFrom source offset).length ∧
      (IsFront ((bytesFrom source offset).take step.width) ∨ step.width = 1) := by
  rcases readAt_cases h with ⟨c, hc, rfl⟩ | ⟨-, rfl⟩
  · have htake : (bytesFrom source offset).take c.utf8Size = String.utf8EncodeChar c := by
      rw [← String.length_utf8EncodeChar]
      exact (List.prefix_iff_eq_take.1 hc).symm
    exact ⟨String.length_utf8EncodeChar c ▸ hc.length_le,
      .inl ⟨c, [], (List.append_nil _).trans htake⟩⟩
  · refine ⟨malformedLength_le_length (bytesFrom_ne_nil (lt_of_readAt h)), ?_⟩
    dsimp only
    rcases Nat.le_total (longestFront (bytesFrom source offset)) 1 with hle | hle
    · exact .inr (Nat.max_eq_left hle)
    · left
      rw [malformedLength, Nat.max_eq_right hle]
      exact isFront_take_longestFront _

/-- No step goes beyond the end of the source. -/
theorem add_width_le_size {source : ByteArray} {offset : Nat} {step : Step}
    (h : readAt source offset = some step) : offset + step.width ≤ source.size := by
  have hlt := lt_of_readAt h
  have hwidth := (isFront_take_width h).1
  rw [length_bytesFrom] at hwidth
  omega

/-- No step that begins before a byte below `80` goes beyond it. -/
theorem add_width_le {source : ByteArray} {offset i : Nat} {step : Step}
    (h : readAt source offset = some step) (hi : i < source.size) (hascii : source[i] < 0x80)
    (hlt : offset < i) : offset + step.width ≤ i := by
  obtain ⟨hle, hfront | hone⟩ := isFront_take_width h
  · by_contra hbeyond
    -- the byte would be a later byte of the front
    have hat : ((bytesFrom source offset).take step.width)[i - offset]? = some source[i] := by
      rw [List.getElem?_take_of_lt (by omega), bytesFrom, List.getElem?_drop,
        Nat.add_sub_cancel' (Nat.le_of_lt hlt)]
      exact List.getElem?_eq_getElem (l := source.data.toList) hi
    have hlength := congrArg List.length (hfront.eq_singleton (List.mem_of_getElem? hat) hascii)
    rw [List.length_take, List.length_singleton] at hlength
    omega
  · omega

/-! ## All steps -/

/-- The offsets at which a source is read from an offset on, the end included.
Only the reader is asked, one step after the other, with no cursor and no search, so
that it can be said of a jump that it comes out where the steps would. -/
def offsetsFrom (source : ByteArray) (offset : Nat) : List Nat :=
  match _h : readAt source offset with
  | some step => offset :: offsetsFrom source (offset + step.width)
  | none => [offset]
termination_by source.size - offset
decreasing_by
  have := lt_of_readAt _h
  have := width_pos_of_readAt _h
  omega

/-- The offsets at which a source is read from its beginning. -/
def offsets (source : ByteArray) : List Nat :=
  offsetsFrom source 0

section

variable {source : ByteArray} {offset : Nat}

theorem mem_offsetsFrom_self : offset ∈ offsetsFrom source offset := by
  unfold offsetsFrom
  split <;> exact List.mem_cons_self

/-- The last of the offsets is the length of the source. -/
theorem getLast?_offsetsFrom (h : offset ≤ source.size) :
    (offsetsFrom source offset).getLast? = some source.size := by
  fun_induction offsetsFrom source offset with
  | case1 offset step hstep ih =>
    rw [List.getLast?_cons, ih (add_width_le_size hstep), Option.getD_some]
  | case2 offset hnone =>
    have hend : ¬offset < source.size := by
      intro hlt
      obtain ⟨step, hstep⟩ := exists_readAt hlt
      rw [hnone] at hstep
      cases hstep
    rw [List.getLast?_singleton, Nat.le_antisymm h (Nat.not_lt.1 hend)]

/-- With an offset the one after its step is among the offsets. -/
theorem add_width_mem_offsetsFrom {first : Nat} {step : Step}
    (h : offset ∈ offsetsFrom source first) (hstep : readAt source offset = some step) :
    offset + step.width ∈ offsetsFrom source first := by
  fun_induction offsetsFrom source first with
  | case1 first other hother ih =>
    obtain rfl | hlater := List.mem_cons.1 h
    · rw [hother, Option.some.injEq] at hstep
      rw [hstep]
      exact List.mem_cons_of_mem _ mem_offsetsFrom_self
    · exact List.mem_cons_of_mem _ (ih hlater)
  | case2 first hnone =>
    rw [List.mem_singleton.1 h, hnone] at hstep
    cases hstep

/-- The offset of a byte below `80` is among the offsets, wherever before it the
reading begins: step by step the reading comes closer to the byte, and no step passes
over it. -/
theorem mem_offsetsFrom {i : Nat} (hle : offset ≤ i) (hi : i < source.size)
    (hascii : source[i] < 0x80) : i ∈ offsetsFrom source offset := by
  fun_induction offsetsFrom source offset with
  | case1 offset step hstep ih =>
    rcases Nat.lt_or_eq_of_le hle with hlt | rfl
    · exact List.mem_cons_of_mem _ (ih (add_width_le hstep hi hascii hlt))
    · exact List.mem_cons_self
  | case2 offset hnone =>
    obtain ⟨step, hstep⟩ := exists_readAt (Nat.lt_of_le_of_lt hle hi)
    rw [hnone] at hstep
    cases hstep

theorem size_mem_offsets (source : ByteArray) : source.size ∈ offsets source :=
  List.mem_of_getLast? (getLast?_offsetsFrom (Nat.zero_le _))

/-- So is the offset just behind such a byte. -/
theorem add_one_mem_offsets {i : Nat} (hi : i < source.size) (hascii : source[i] < 0x80) :
    i + 1 ∈ offsets source := by
  have hread : readAt source i = some ⟨.char (Char.ofNat source[i].toNat), 1⟩ := by
    rw [readAt, dif_pos hi]
    exact if_pos hascii
  exact add_width_mem_offsetsFrom (mem_offsetsFrom (Nat.zero_le i) hi hascii) hread

end

end Utf8

end ByteLexer
