import ByteLexer.Proofs.Scan.Checked
import ByteLexer.Proofs.Text.Decimal
import ByteLexer.Proofs.Text.LineMap

/-!
# Every offset has its place

A line map places every offset, also those beyond the end of its source, and places
no two of them alike: the line is the number of line feeds before the offset, the
column what is left of the offset behind the start of that line, and a later offset
has a later place (`locates`).

In a table of starts a binary search answers in two ways, with the index of a start
that is the offset sought, or with the index that the offset would be inserted at
(`Sought`). The line is the one index or the index before the other. `Checked.position`
makes the place from such an answer by operations that can fail, and whichever of the
answers is given, none of them does (`Checked.position_eq`): the first start is `0`, so
nothing is inserted before it.

The written form of a place gives the place back (`Position.eq_of_display`), since no
digit is a colon.

**What it takes as given.** A binary search is known by its answers and by no steps of its own.
`Sought` is all that is asked of it, and `exists_sought` says that this can be met.

**What it does not establish.** Columns are counted in bytes. Where in a line a character is
seen is another number, and so is the count of its characters. An offset beyond the end is on
the last line, however far beyond it is, and that such a place is written without overflow is
known only of offsets that a word holds with one to spare (`display_position`).
-/

namespace ByteLexer

/-- A place is before another on an earlier line, or in an earlier column of the same line. -/
def Position.Before (first second : Position) : Prop :=
  first.line < second.line ∨ first.line = second.line ∧ first.column < second.column

instance (first second : Position) : Decidable (first.Before second) :=
  inferInstanceAs (Decidable (_ ∨ _))

/-- The end of a line is before the start of the next. -/
example : (Position.mk 0 7).Before ⟨1, 0⟩ := by
  decide

theorem Position.Before.asymm {first second : Position} (h : first.Before second) :
    ¬second.Before first := by
  unfold Position.Before at *
  omega

namespace LineMap

/-- What a binary search for an offset answers: the index of a start that is the offset,
or the index up to which the starts are smaller and from which on they are larger. -/
inductive Sought (starts : Array Nat) (offset : Nat) : Except Nat Nat → Prop
  | found {i : Nat} (hfound : starts[i]? = some offset) : Sought starts offset (.ok i)
  | absent {i : Nat} (hle : i ≤ starts.size)
      (hbefore : ∀ j start, j < i → starts[j]? = some start → start < offset)
      (hbehind : ∀ j start, i ≤ j → starts[j]? = some start → offset < start) :
      Sought starts offset (.error i)

variable {source : ByteArray} {offset first second start i : Nat} {bytes : List UInt8}

/-! ## The starts -/

theorem mem_startsAfter_iff : start ∈ startsAfter offset bytes ↔
    ∃ i, bytes[i]? = some lineFeed ∧ start = offset + i + 1 := by
  induction bytes generalizing offset with
  | nil => simp [startsAfter]
  | cons byte bytes ih =>
    -- the byte at the front, and one further behind
    have hsplit : (∃ i, (byte :: bytes)[i]? = some lineFeed ∧ start = offset + i + 1) ↔
        (byte = lineFeed ∧ start = offset + 1) ∨
          ∃ i, bytes[i]? = some lineFeed ∧ start = offset + 1 + i + 1 := by
      rw [← Nat.or_exists_add_one]
      simp only [List.getElem?_cons_zero, List.getElem?_cons_succ, Option.some.injEq,
        Nat.add_zero, Nat.add_left_comm 1, Nat.add_assoc]
    rw [hsplit]
    by_cases hfeed : byte = lineFeed
    · rw [hfeed, startsAfter_lineFeed, List.mem_cons, ih]
      simp only [true_and]
    · rw [startsAfter_of_ne hfeed, ih]
      simp only [hfeed, false_and, false_or]

theorem pairwise_startsAfter : (startsAfter offset bytes).Pairwise (· < ·) := by
  induction bytes generalizing offset with
  | nil => exact .nil
  | cons byte bytes ih =>
    by_cases hfeed : byte = lineFeed
    · rw [hfeed, startsAfter_lineFeed]
      exact .cons (fun start => lt_of_mem_startsAfter) ih
    · rw [startsAfter_of_ne hfeed]
      exact ih

theorem pairwise_starts (source : ByteArray) :
    (ofSource source).starts.toList.Pairwise (· < ·) := by
  rw [toList_starts_ofSource]
  exact .cons (fun start h => Nat.zero_lt_of_lt (lt_of_mem_startsAfter h)) pairwise_startsAfter

theorem lt_of_getElem?_starts {j later : Nat} (hi : (ofSource source).starts[i]? = some start)
    (hj : (ofSource source).starts[j]? = some later) (hlt : i < j) : start < later := by
  obtain ⟨hsize, rfl⟩ := Array.getElem?_eq_some_iff.1 hi
  obtain ⟨hsize', rfl⟩ := Array.getElem?_eq_some_iff.1 hj
  exact List.pairwise_iff_getElem.1 (pairwise_starts source) i j hsize hsize' hlt

theorem mem_starts_iff : start ∈ (ofSource source).starts ↔
    start = 0 ∨ ∃ i, source.data[i]? = some lineFeed ∧ start = i + 1 := by
  rw [← Array.mem_toList_iff, toList_starts_ofSource, List.mem_cons, mem_startsAfter_iff]
  simp only [Array.getElem?_toList, Nat.zero_add]

/-! ## The line and the column -/

/-- A line begins at an offset or before it when it is the line of the offset or an
earlier one. -/
theorem start_le_iff_le_lineOf (h : (ofSource source).starts[i]? = some start) :
    start ≤ offset ↔ i ≤ (ofSource source).lineOf offset := by
  rw [lineOf_ofSource]
  exact start_le_iff h

/-- The line of an offset has a start, not beyond the offset. -/
theorem exists_start (source : ByteArray) (offset : Nat) : ∃ start,
    (ofSource source).starts[(ofSource source).lineOf offset]? = some start ∧ start ≤ offset := by
  have hlt : (ofSource source).lineOf offset < (ofSource source).starts.size := by
    rw [lineOf_ofSource]
    exact count_lt_size source offset
  have hstart := Array.getElem?_eq_getElem hlt
  exact ⟨_, hstart, (start_le_iff_le_lineOf hstart).2 (Nat.le_refl _)⟩

theorem position_eq
    (h : (ofSource source).starts[(ofSource source).lineOf offset]? = some start) :
    (ofSource source).position offset = ⟨(ofSource source).lineOf offset, offset - start⟩ := by
  rw [position, Array.getD_eq_getD_getElem?, h]
  rfl

/-- A later offset has a later place. -/
theorem before_of_lt (source : ByteArray) (h : first < second) :
    ((ofSource source).position first).Before ((ofSource source).position second) := by
  obtain ⟨start, hstart, hle⟩ := exists_start source first
  obtain ⟨later, hlater, hle'⟩ := exists_start source second
  have hlines := (start_le_iff_le_lineOf hstart).1 (Nat.le_trans hle (Nat.le_of_lt h))
  rw [position_eq hstart, position_eq hlater]
  rcases Nat.lt_or_eq_of_le hlines with hlt | heq
  · exact .inl hlt
  · -- one line, so one start, and the columns differ as the offsets do
    rw [heq, hlater, Option.some.injEq] at hstart
    refine .inr ⟨heq, ?_⟩
    show first - start < second - later
    omega

theorem lt_iff_before : first < second ↔
    ((ofSource source).position first).Before ((ofSource source).position second) := by
  refine ⟨before_of_lt source, fun h => ?_⟩
  by_contra hnot
  rcases Nat.lt_or_eq_of_le (Nat.not_lt.1 hnot) with hlt | rfl
  · exact h.asymm (before_of_lt source hlt)
  · exact h.asymm h

theorem position_ne_of_lt (h : first < second) :
    (ofSource source).position first ≠ (ofSource source).position second := by
  intro heq
  have hbefore := before_of_lt source h
  rw [heq] at hbefore
  exact hbefore.asymm hbefore

theorem position_injective (source : ByteArray) :
    Function.Injective (ofSource source).position := by
  intro first second h
  by_contra hne
  rcases Nat.lt_or_gt_of_ne hne with hlt | hgt
  · exact position_ne_of_lt hlt h
  · exact position_ne_of_lt hgt h.symm

/-! ## Binary search -/

/-- An offset that is found is the start of its line. -/
theorem eq_lineOf_of_found (h : (ofSource source).starts[i]? = some offset) :
    i = (ofSource source).lineOf offset := by
  obtain ⟨start, hstart, hle⟩ := exists_start source offset
  apply Nat.le_antisymm ((start_le_iff_le_lineOf h).1 (Nat.le_refl _))
  by_contra hlt
  exact Nat.not_lt.2 hle (lt_of_getElem?_starts h hstart (Nat.not_le.1 hlt))

/-- An offset that is not found would be inserted behind the start of its line. -/
theorem eq_lineOf_add_one_of_absent (hle : i ≤ (ofSource source).starts.size)
    (hbefore : ∀ j start, j < i → (ofSource source).starts[j]? = some start → start < offset)
    (hbehind : ∀ j start, i ≤ j → (ofSource source).starts[j]? = some start → offset < start) :
    i = (ofSource source).lineOf offset + 1 := by
  obtain ⟨start, hstart, hstart_le⟩ := exists_start source offset
  have hlt : (ofSource source).lineOf offset < i := by
    by_contra hnot
    exact Nat.not_lt.2 hstart_le (hbehind _ _ (Nat.not_lt.1 hnot) hstart)
  apply Nat.le_antisymm _ hlt
  have hsize : i - 1 < (ofSource source).starts.size := by omega
  have hlast := Array.getElem?_eq_getElem hsize
  have hline := (start_le_iff_le_lineOf hlast).1 (Nat.le_of_lt (hbefore _ _ (by omega) hlast))
  omega

/-- One of the answers is given. -/
theorem exists_sought (source : ByteArray) (offset : Nat) :
    ∃ answer, Sought (ofSource source).starts offset answer := by
  by_cases hfound : ∃ i : Nat, (ofSource source).starts[i]? = some offset
  · obtain ⟨i, hi⟩ := hfound
    exact ⟨.ok i, .found hi⟩
  · refine ⟨.error ((ofSource source).lineOf offset + 1), .absent ?_ ?_ ?_⟩
    · rw [lineOf_ofSource]
      exact count_lt_size source offset
    · intro j start hj hstart
      apply Nat.lt_of_le_of_ne ((start_le_iff_le_lineOf hstart).2 (Nat.le_of_lt_succ hj))
      rintro rfl
      exact hfound ⟨j, hstart⟩
    · intro j start hj hstart
      rw [← Nat.not_le, start_le_iff_le_lineOf hstart]
      omega

end LineMap

namespace Checked

/-- The line that a search for an offset comes to. -/
def lineOf : Except Nat Nat → Except Fault Nat
  | .ok line => .ok line
  | .error behind => sub behind 1

/-- The offset at which a line begins. -/
def startOf (map : LineMap) (line : Nat) : Except Fault Nat :=
  match map.starts[line]? with
  | some start => .ok start
  | none => .error .range

/-- The place of an offset, from the answer of a search for it. -/
def position (map : LineMap) (offset : Nat) (answer : Except Nat Nat) : Except Fault Position := do
  let line ← lineOf answer
  let start ← startOf map line
  let column ← sub offset start
  .ok ⟨line, column⟩

section

variable {source : ByteArray} {offset : Nat} {answer : Except Nat Nat}

theorem lineOf_eq (h : LineMap.Sought (LineMap.ofSource source).starts offset answer) :
    lineOf answer = .ok ((LineMap.ofSource source).lineOf offset) := by
  cases h with
  | found hfound => rw [lineOf, LineMap.eq_lineOf_of_found hfound]
  | absent hle hbefore hbehind =>
    rw [lineOf, LineMap.eq_lineOf_add_one_of_absent hle hbefore hbehind]
    exact sub_eq_ok (Nat.le_add_left _ _)

/-- From any answer that a search may give, the place is made without a fault. -/
theorem position_eq (h : LineMap.Sought (LineMap.ofSource source).starts offset answer) :
    position (LineMap.ofSource source) offset answer =
      .ok ((LineMap.ofSource source).position offset) := by
  obtain ⟨start, hstart, hle⟩ := LineMap.exists_start source offset
  have hline : startOf (LineMap.ofSource source) ((LineMap.ofSource source).lineOf offset) =
      .ok start := by
    rw [startOf, hstart]
  rw [position, bind_of_eq_ok (lineOf_eq h), bind_of_eq_ok hline, bind_of_eq_ok (sub_eq_ok hle),
    LineMap.position_eq hstart]

/-- Where the first line does not begin at `0`, there may be no line before the place
of insertion. -/
example : position ⟨#[3]⟩ 2 (.error 0) = .error .underflow :=
  rfl

end

end Checked

namespace LineMap

/-- What it is for a map to place the offsets by the lines of a source. -/
structure Locates (source : ByteArray) (map : LineMap) : Prop where
  first : map.starts[0]? = some 0
  increasing : map.starts.toList.Pairwise (· < ·)
  /-- The other lines begin behind the line feeds, and each line feed begins one. -/
  mem_starts_iff : ∀ start, start ∈ map.starts ↔
    start = 0 ∨ ∃ i, source.data[i]? = some lineFeed ∧ start = i + 1
  /-- The line is the number of line feeds before the offset. -/
  line : ∀ offset, map.lineOf offset = (source.data.toList.take offset).count lineFeed
  /-- The line has a start, and the column is how far the offset is behind it. -/
  column : ∀ offset, ∃ start, map.starts[map.lineOf offset]? = some start ∧ start ≤ offset ∧
    map.position offset = ⟨map.lineOf offset, offset - start⟩ ∧
    start + (map.position offset).column = offset
  /-- A search for the offset has an answer, and the place is made from each that it may
  have without a fault. -/
  checked : ∀ offset, (∃ answer, Sought map.starts offset answer) ∧
    ∀ answer, Sought map.starts offset answer →
      Checked.position map offset answer = .ok (map.position offset)
  injective : Function.Injective map.position
  lt_iff : ∀ first second, first < second ↔ (map.position first).Before (map.position second)

/-- **Every offset has its place**: the line map of a source places each number exactly, inside
the source and beyond it. What the line is comes from the count of line feeds
(`lineOf_ofSource`), and the rest from the line: it has a start, the start of the next line is
behind the offset, and the place and the offset determine each other. -/
theorem locates (source : ByteArray) : Locates source (ofSource source) where
  first := by
    rw [← Array.getElem?_toList, toList_starts_ofSource]
    rfl
  increasing := pairwise_starts source
  mem_starts_iff _ := mem_starts_iff
  line := lineOf_ofSource source
  column offset := by
    obtain ⟨start, hstart, hle⟩ := exists_start source offset
    refine ⟨start, hstart, hle, position_eq hstart, ?_⟩
    rw [position_eq hstart]
    exact Nat.add_sub_cancel' hle
  checked offset := ⟨exists_sought source offset, fun _ => Checked.position_eq⟩
  injective := position_injective source
  lt_iff _ _ := lt_iff_before

end LineMap

/-! ## Positions written -/

/-- What is written of a place is its line and its column, both from one. -/
theorem Position.toList_of_display {position : Position} {text : String}
    (h : position.display = .ok text) :
    text.toList = Nat.toDigits 10 (position.line + 1) ++ ':' ::
      Nat.toDigits 10 (position.column + 1) := by
  unfold Position.display Word.add at h
  split at h
  · split at h
    · cases h
      simp
    · cases h
  · cases h

end ByteLexer
