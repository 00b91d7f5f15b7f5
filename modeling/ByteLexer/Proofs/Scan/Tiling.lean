import ByteLexer.Proofs.Scan.Run

/-!
# The tokens of a source tile it

Between two calls a scanner stands at an offset, and what the call takes
lies between the offset before and the offset after. `Tile` says what that
is: spaces up to the token, and then the token, which is the bytes of its
text unless it stands for an error or for the end.

Every call takes such a stretch (`tile_next`) and every token but the end of
the source takes a byte at least (`isEndOfInput_or_lt`), so a run reaches the
end and its stretches are the source (`exists_tiling`).

**What it does not establish.** A tile says what was taken, and not that it was right to
take it: that a word is as long as it can be, and that an error is one, is said by
`tokenize_eq_lexFrom`. The end of a token is a sum, and is computed only where a word
holds it; that no source is too long for that is not proved, but asked.
-/

namespace ByteLexer

/-- A call of a scanner that stands at `before` hands out `token` and leaves
the scanner at `after`. The stretch between the two is accounted for byte by byte: what
lies before the token is spaces, and what lies behind its start is its text, unless it is
an error, whose bytes are lost. -/
structure Tile (source : ByteArray) (before : Nat) (token : Token) (after : Nat) : Prop where
  before_le : before ≤ token.offset
  le_after : token.offset ≤ after
  /-- Nothing but spaces is passed over before the token. -/
  gap : ∀ byte ∈ (source.extract before token.offset).data, ByteClass.isSpace byte = true
  /-- No space stands where the token starts. -/
  front : ∀ h : token.offset < source.size, ByteClass.isSpace source[token.offset] = false
  /-- A token proper has a text, and takes the bytes of it. -/
  word : token.isError = false → token.isEndOfInput = false →
    token.text ≠ "" ∧ source.extract token.offset after = token.text.toByteArray ∧
      (after < UInt64.size → token.stop = .ok after)
  /-- An error has no text, and takes something all the same. -/
  error : token.isError = true → token.text = "" ∧ token.offset < after

namespace Scanner

variable {scanner : Scanner}

/-! ## What one call takes -/

/-- Only the end of the source is handed out without moving beyond it. -/
theorem isEndOfInput_or_lt (h : scanner.cursor.ReadAhead) :
    (scanner.next.1 = .endOfInput scanner.source.size ∧
      scanner.next.2.offset = scanner.source.size) ∨
    (scanner.next.1.isEndOfInput = false ∧ scanner.next.1.offset < scanner.next.2.offset) := by
  rw [offset_next h]
  rcases next_cases h with ⟨htoken, -, hoffset, -⟩ |
    ⟨kind, word, hkind, hword, htoken, hoffset, -⟩ |
    ⟨cause, size, _, _, hpos, -, -, htoken, hoffset, -⟩
  · exact .inl ⟨htoken, hoffset⟩
  · right
    have hpos := List.length_pos_iff.2 hword.ne_nil
    rw [htoken, hoffset]
    exact ⟨(Bool.or_eq_false_iff.1 hkind).2, by omega⟩
  · right
    rw [htoken, hoffset]
    exact ⟨rfl, by omega⟩

theorem gap_next (h : scanner.cursor.ReadAhead) :
    ∀ byte ∈ (scanner.source.extract scanner.offset scanner.next.1.offset).data,
      ByteClass.isSpace byte = true := by
  have hgap : (scanner.source.extract scanner.offset scanner.next.1.offset).data.toList =
      scanner.rest.takeWhile ByteClass.isSpace := by
    have hprefix := List.takeWhile_prefix (l := scanner.rest) ByteClass.isSpace
    rw [offset_next h, startOffset, extract_eq, Nat.add_sub_cancel_left,
      List.toList_data_toByteArray]
    exact (List.prefix_iff_eq_take.1 hprefix).symm
  intro byte hbyte
  have hmem : byte ∈ scanner.rest.takeWhile ByteClass.isSpace := by
    rw [← hgap]
    exact Array.mem_toList_iff.2 hbyte
  exact List.all_eq_true.1 List.all_takeWhile byte hmem

theorem front_next (h : scanner.cursor.ReadAhead)
    (hlt : scanner.next.1.offset < scanner.source.size) :
    ByteClass.isSpace scanner.source[scanner.next.1.offset] = false := by
  apply scanner.isSpace_startOffset
  rw [← offset_next h]
  exact bytesFrom_of_lt hlt

theorem word_next (h : scanner.cursor.ReadAhead) (herror : scanner.next.1.isError = false)
    (hend : scanner.next.1.isEndOfInput = false) :
    scanner.next.1.text ≠ "" ∧
      scanner.source.extract scanner.next.1.offset scanner.next.2.offset =
        scanner.next.1.text.toByteArray ∧
      (scanner.next.2.offset < UInt64.size → scanner.next.1.stop = .ok scanner.next.2.offset) := by
  rcases next_cases h with ⟨htoken, -⟩ | ⟨kind, word, -, hword, htoken, hoffset, -⟩ |
    ⟨_, _, _, _, -, -, -, htoken, -⟩
  · rw [htoken] at hend
    cases hend
  · rw [htoken, hoffset]
    refine ⟨hword.text_ne_empty, ?_, ?_⟩
    · show scanner.source.extract scanner.startOffset (scanner.startOffset + word.length) =
        (Utf8.text word).toByteArray
      rw [extract_eq, Nat.add_sub_cancel_left, hword.toByteArray_text,
        ← List.prefix_iff_eq_take.1 hword.isPrefix]
    · intro hlt
      show Word.add scanner.startOffset (Utf8.text word).utf8ByteSize = _
      rw [hword.utf8ByteSize_text]
      exact Word.add_eq_ok hlt
  · rw [htoken] at herror
    cases herror

theorem error_next (h : scanner.cursor.ReadAhead) (herror : scanner.next.1.isError = true) :
    scanner.next.1.text = "" ∧ scanner.next.1.offset < scanner.next.2.offset := by
  rcases next_cases h with ⟨htoken, -⟩ | ⟨kind, word, hkind, -, htoken, -⟩ |
    ⟨cause, size, _, _, hpos, -, -, htoken, hoffset, -⟩
  · rw [htoken] at herror
    cases herror
  · rw [htoken] at herror
    have hkind : decide (kind = .error) = false := (Bool.or_eq_false_iff.1 hkind).1
    exact absurd herror (Bool.eq_false_iff.1 hkind)
  · rw [offset_next h, htoken, hoffset]
    exact ⟨rfl, by omega⟩

/-- **A call takes a tile.** -/
theorem tile_next (h : scanner.cursor.ReadAhead) :
    Tile scanner.source scanner.offset scanner.next.1 scanner.next.2.offset where
  before_le := by
    rw [offset_next h]
    exact Nat.le_add_right _ _
  le_after := by
    rcases isEndOfInput_or_lt h with ⟨hend, hoffset⟩ | ⟨-, hlt⟩
    · rw [hend, hoffset]
      exact Nat.le_refl _
    · exact Nat.le_of_lt hlt
  gap := gap_next h
  front := front_next h
  word := word_next h
  error := error_next h

/-! ## What a run takes -/

/-- What the first calls take, gaps and extents, one after the other. It is put
together from the stretches alone, so that any byte taken twice or left out would show. -/
def rebuilt (scanner : Scanner) : Nat → ByteArray
  | 0 => .empty
  | n + 1 =>
    scanner.rebuilt n ++
      scanner.source.extract (scanner.after n).offset (scanner.token n).offset ++
      scanner.source.extract (scanner.token n).offset (scanner.after (n + 1)).offset

theorem tile_after (h : scanner.cursor.ReadAhead) (n : Nat) :
    Tile scanner.source (scanner.after n).offset (scanner.token n)
      (scanner.after (n + 1)).offset := by
  have htile := tile_next (readAhead_after h n)
  rw [source_after h n] at htile
  exact htile

theorem rebuilt_eq (h : scanner.cursor.ReadAhead) (hzero : scanner.offset = 0) (n : Nat) :
    scanner.rebuilt n = scanner.source.extract 0 (scanner.after n).offset := by
  induction n with
  | zero =>
    show ByteArray.empty = scanner.source.extract 0 scanner.offset
    rw [hzero, ByteArray.extract_same]
  | succ n ih =>
    have htile := tile_after h n
    rw [rebuilt, ih,
      ← ByteArray.extract_eq_extract_append_extract _ (Nat.zero_le _) htile.before_le,
      ← ByteArray.extract_eq_extract_append_extract _ (Nat.zero_le _) htile.le_after]

/-- Up to the end of the source every call moves on by a byte at least. -/
theorem le_offset_after (h : scanner.cursor.ReadAhead) (n : Nat)
    (hopen : ∀ i < n, (scanner.token i).isEndOfInput = false) : n ≤ (scanner.after n).offset := by
  induction n with
  | zero => exact Nat.zero_le _
  | succ n ih =>
    have hle := ih fun i hi => hopen i (Nat.lt_succ_of_lt hi)
    have hbefore := (tile_after h n).before_le
    rcases isEndOfInput_or_lt (readAhead_after h n) with ⟨hend, -⟩ | ⟨-, hlt⟩
    · have hn := hopen n (Nat.lt_succ_self n)
      rw [token, hend] at hn
      cases hn
    · show n + 1 ≤ (scanner.after n).next.2.offset
      have hbefore : (scanner.after n).offset ≤ (scanner.after n).next.1.offset := hbefore
      omega

theorem offset_after_le (h : scanner.cursor.ReadAhead) (n : Nat) :
    (scanner.after n).offset ≤ scanner.source.size := by
  have hle : (scanner.after n).offset ≤ (scanner.after n).source.size :=
    (readAhead_after h n).position_le
  rw [source_after h n] at hle
  exact hle

/-- The end of the source is handed out in the end, and not after more calls
than there are bytes. It is not the scanner's own measure that says so, but that each call
before it moves on, and no call moves beyond the source. -/
theorem exists_isEndOfInput (h : scanner.cursor.ReadAhead) :
    ∃ n ≤ scanner.source.size, (scanner.token n).isEndOfInput = true ∧
      ∀ i < n, (scanner.token i).isEndOfInput = false := by
  have hsome : ∃ n, (scanner.token n).isEndOfInput = true := by
    by_contra hnone
    have hopen : ∀ i < scanner.source.size + 1, (scanner.token i).isEndOfInput = false := by
      intro i _
      exact Bool.eq_false_iff.2 fun hi => hnone ⟨i, hi⟩
    have hle := le_offset_after h _ hopen
    have := offset_after_le h (scanner.source.size + 1)
    omega
  have hopen : ∀ i < Nat.find hsome, (scanner.token i).isEndOfInput = false := by
    intro i hi
    exact Bool.eq_false_iff.2 (Nat.find_min hsome hi)
  refine ⟨Nat.find hsome, ?_, Nat.find_spec hsome, hopen⟩
  exact Nat.le_trans (le_offset_after h _ hopen) (offset_after_le h _)

theorem increasing_token (h : scanner.cursor.ReadAhead) {n : Nat}
    (hopen : ∀ i < n, (scanner.token i).isEndOfInput = false) {i j : Nat} (hij : i < j)
    (hj : j ≤ n) : (scanner.token i).offset < (scanner.token j).offset := by
  induction j with
  | zero => exact absurd hij (Nat.not_lt_zero i)
  | succ j ih =>
    -- the token before ends where the gap before this one begins
    have hlt : (scanner.token j).offset < (scanner.after (j + 1)).offset := by
      rcases isEndOfInput_or_lt (readAhead_after h j) with ⟨hend, -⟩ | ⟨-, hlt⟩
      · have hnot := hopen j hj
        rw [token, hend] at hnot
        cases hnot
      · exact hlt
    have hlast := Nat.lt_of_lt_of_le hlt (tile_after h (j + 1)).before_le
    rcases Nat.lt_or_eq_of_le (Nat.le_of_lt_succ hij) with hlater | hsame
    · exact Nat.lt_trans (ih hlater (Nat.le_of_succ_le hj)) hlast
    · rw [hsame]
      exact hlast

/-- The tokens of the first `n + 1` calls tile a source: the first `n` calls
do not hand out its end, and the last does. -/
structure Tiling (source : ByteArray) (n : Nat) : Prop where
  le_size : n ≤ source.size
  first_offset : ((start source).after 0).offset = 0
  last_offset : ((start source).after (n + 1)).offset = source.size
  last_token : (start source).token n = .endOfInput source.size
  not_last : ∀ i < n, ((start source).token i).isEndOfInput = false
  tile : ∀ i ≤ n, Tile source ((start source).after i).offset ((start source).token i)
    ((start source).after (i + 1)).offset
  increasing : ∀ i j, i < j → j ≤ n →
    ((start source).token i).offset < ((start source).token j).offset
  /-- Gaps and extents, one after the other, are the source. -/
  rebuilt_eq : (start source).rebuilt (n + 1) = source

/-- **The tokens of every source tile it.** A run comes to the end of the source, and up to
there its gaps and extents are the source, each byte once and in order, with offsets that
grow. Nothing is asked of the source. The steps are `tile_next`, for one call, and that
a call which does not hand out the end moves on (`isEndOfInput_or_lt`). -/
theorem exists_tiling (source : ByteArray) : ∃ n, Tiling source n := by
  have h : (start source).cursor.ReadAhead := Cursor.readAhead_start source
  have hsource : (start source).source = source := Cursor.source_start source
  have hzero : (start source).offset = 0 := Cursor.position_start source
  obtain ⟨n, hle, hend, hopen⟩ := exists_isEndOfInput h
  obtain ⟨htoken, hoffset⟩ : (start source).token n = .endOfInput source.size ∧
      ((start source).after (n + 1)).offset = source.size := by
    rcases isEndOfInput_or_lt (readAhead_after h n) with
      hlast | ⟨hnot, -⟩
    · rw [source_after h n, hsource] at hlast
      exact hlast
    · rw [token, hnot] at hend
      cases hend
  refine ⟨n, hsource ▸ hle, hzero, hoffset, htoken, hopen, ?_, ?_, ?_⟩
  · intro i _
    have htile := tile_after h i
    rw [hsource] at htile
    exact htile
  · intro i j hij hj
    exact increasing_token h hopen hij hj
  · rw [rebuilt_eq h hzero, hoffset, hsource, ByteArray.extract_zero_size]

end Scanner

end ByteLexer
