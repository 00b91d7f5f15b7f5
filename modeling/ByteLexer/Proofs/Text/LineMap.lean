import ByteLexer.Proofs.Utf8.Decoding
import ByteLexer.Text.LineMap

/-!
# Lines are counted by line feeds

A line begins after each line feed (`startsAfter`). How many lines begin at an
offset or before it is therefore a count of line feeds (`startsAfter_le_iff`),
and the bisection finds that count, since it ends at the only index that parts the
starts up to the offset from the later ones (`firstAfter_eq`).

The line of an offset is then the number of line feeds before it (`lineOf_ofSource`),
and no position in a source overflows when it is written (`display_position`).

**What it does not establish.** A line ends with a line feed and with nothing else. A carriage
return and the other characters that some programs take to end a line are bytes of the line
that they stand on. The starts of another list than that of a source are covered only as far
as `firstAfter_eq` goes: where no index parts them, what the bisection finds is left open.
-/

namespace ByteLexer

namespace LineMap

/-- The offsets after the line feeds of the bytes, the first of which is at an offset. -/
def startsAfter (offset : Nat) : List UInt8 → List Nat
  | [] => []
  | byte :: bytes =>
    if byte = lineFeed then (offset + 1) :: startsAfter (offset + 1) bytes
    else startsAfter (offset + 1) bytes

variable {source : ByteArray} {offset : Nat} {byte : UInt8} {bytes : List UInt8}

theorem startsAfter_lineFeed :
    startsAfter offset (lineFeed :: bytes) = (offset + 1) :: startsAfter (offset + 1) bytes :=
  if_pos rfl

theorem startsAfter_of_ne (h : byte ≠ lineFeed) :
    startsAfter offset (byte :: bytes) = startsAfter (offset + 1) bytes :=
  if_neg h

theorem toList_startsFrom (source : ByteArray) (i : Nat) (starts : Array Nat) :
    (startsFrom source i starts).toList = starts.toList ++ startsAfter i (bytesFrom source i) := by
  fun_induction startsFrom source i starts with
  | case1 i starts h ih =>
    rw [bytesFrom_of_lt h]
    by_cases hfeed : source[i] = lineFeed
    · rw [dif_pos hfeed] at ih
      rw [if_pos hfeed, ih, hfeed, startsAfter_lineFeed, Array.toList_push, List.append_assoc,
        List.singleton_append]
    · rw [dif_neg hfeed] at ih
      rw [if_neg hfeed, ih, startsAfter_of_ne hfeed]
  | case2 i starts h =>
    rw [bytesFrom_of_le (Nat.not_lt.1 h), startsAfter, List.append_nil]

theorem toList_starts_ofSource (source : ByteArray) :
    (ofSource source).starts.toList = 0 :: startsAfter 0 source.data.toList :=
  toList_startsFrom source 0 #[0]

theorem length_startsAfter : (startsAfter offset bytes).length = bytes.count lineFeed := by
  induction bytes generalizing offset with
  | nil => rfl
  | cons byte bytes ih =>
    by_cases hfeed : byte = lineFeed
    · rw [hfeed, startsAfter_lineFeed, List.length_cons, ih, List.count_cons_self]
    · rw [startsAfter_of_ne hfeed, ih, List.count_cons_of_ne hfeed]

theorem lt_of_mem_startsAfter {start : Nat} (h : start ∈ startsAfter offset bytes) :
    offset < start := by
  induction bytes generalizing offset with
  | nil => cases h
  | cons byte bytes ih =>
    by_cases hfeed : byte = lineFeed
    · rw [hfeed, startsAfter_lineFeed] at h
      obtain rfl | h := List.mem_cons.1 h
      · exact Nat.lt_succ_self offset
      · exact Nat.lt_of_succ_lt (ih h)
    · rw [startsAfter_of_ne hfeed] at h
      exact Nat.lt_of_succ_lt (ih h)

/-- The starts up to `n` bytes further are as many as the line feeds among these bytes. -/
theorem startsAfter_le_iff {n i start : Nat} (h : (startsAfter offset bytes)[i]? = some start) :
    start ≤ offset + n ↔ i < (bytes.take n).count lineFeed := by
  induction bytes generalizing offset n i with
  | nil => cases h
  | cons byte bytes ih =>
    cases n with
    | zero =>
      have hlt := lt_of_mem_startsAfter (List.mem_of_getElem? h)
      exact iff_of_false (Nat.not_le.2 hlt) (Nat.not_lt_zero i)
    | succ n =>
      have hnext : offset + (n + 1) = offset + 1 + n := by omega
      rw [List.take_succ_cons, hnext]
      by_cases hfeed : byte = lineFeed
      · rw [hfeed, startsAfter_lineFeed] at h
        rw [hfeed, List.count_cons_self]
        cases i with
        | zero =>
          cases h
          exact iff_of_true (Nat.le_add_right _ _) (Nat.succ_pos _)
        | succ i => rw [ih h, Nat.succ_lt_succ_iff]
      · rw [startsAfter_of_ne hfeed] at h
        rw [ih h, List.count_cons_of_ne hfeed]

/-! ## The bisection -/

/-- Where an index parts the starts up to an offset from the later ones, the bisection ends at it.
The index stays between the two bounds, which is all that the induction carries, and once
they meet it is where they do. -/
theorem firstAfter_eq {starts : Array Nat} {low high parting : Nat} {bounded : high ≤ starts.size}
    (hparts : ∀ i (h : i < starts.size), starts[i] ≤ offset ↔ i < parting)
    (hlow : low ≤ parting) (hhigh : parting ≤ high) :
    firstAfter starts offset low high bounded = parting := by
  fun_induction firstAfter starts offset low high bounded with
  | case1 low high bounded h middle below hle ih =>
    exact ih ((hparts middle below).1 hle) hhigh
  | case2 low high bounded h middle below hgt ih =>
    exact ih hlow (Nat.not_lt.1 (mt (hparts middle below).2 hgt))
  | case3 low high bounded h =>
    omega

/-- The line with an index begins at an offset or before it when there are as many line
feeds before the offset. -/
theorem start_le_iff {i start : Nat} (h : (ofSource source).starts[i]? = some start) :
    start ≤ offset ↔ i ≤ (source.data.toList.take offset).count lineFeed := by
  rw [← Array.getElem?_toList, toList_starts_ofSource] at h
  cases i with
  | zero =>
    rw [← Option.some.inj h]
    exact iff_of_true (Nat.zero_le _) (Nat.zero_le _)
  | succ i =>
    have hle := startsAfter_le_iff (n := offset) h
    rw [Nat.zero_add] at hle
    rw [hle, Nat.succ_le_iff]

/-- There are no more line feeds before an offset than there are starts after the first. -/
theorem count_lt_size (source : ByteArray) (offset : Nat) :
    (source.data.toList.take offset).count lineFeed < (ofSource source).starts.size := by
  rw [← Array.length_toList, toList_starts_ofSource, List.length_cons, length_startsAfter]
  exact Nat.lt_succ_of_le ((List.take_sublist _ _).count_le lineFeed)

/-- The line of an offset is the number of line feeds before it, also where the offset is that of
a line feed, which is still on the line that it ends, and where it is beyond the source. -/
theorem lineOf_ofSource (source : ByteArray) (offset : Nat) :
    (ofSource source).lineOf offset = (source.data.toList.take offset).count lineFeed := by
  have hparts : ∀ i (h : i < (ofSource source).starts.size),
      (ofSource source).starts[i] ≤ offset ↔
        i < (source.data.toList.take offset).count lineFeed + 1 := by
    intro i h
    rw [start_le_iff (Array.getElem?_eq_getElem h), Nat.lt_succ_iff]
  rw [lineOf, firstAfter_eq hparts (Nat.zero_le _) (count_lt_size source offset),
    Nat.add_sub_cancel]

/-! ## Positions written -/

/-- No position of an offset in a source overflows when it is written. -/
theorem display_position (h : offset + 1 < UInt64.size) :
    ((ofSource source).position offset).display =
      .ok (toString (((ofSource source).position offset).line + 1) ++ ":" ++
        toString (((ofSource source).position offset).column + 1)) := by
  have hline : ((ofSource source).position offset).line ≤ offset := by
    show (ofSource source).lineOf offset ≤ offset
    rw [lineOf_ofSource]
    exact Nat.le_trans List.count_le_length (List.length_take_le _ _)
  have hcolumn : ((ofSource source).position offset).column ≤ offset := Nat.sub_le _ _
  rw [Position.display, Word.add_eq_ok (by omega), Word.add_eq_ok (by omega)]
  rfl

end LineMap

end ByteLexer
