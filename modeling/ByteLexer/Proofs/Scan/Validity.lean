import ByteLexer.Proofs.Scan.Grammar
import ByteLexer.Proofs.Scan.Primed
import ByteLexer.Proofs.Scan.Tiling

/-!
# Valid sources and others

Whether a source is the encoding of a text is settled for the source as a whole, while
a scanner decodes here a character and there a string, and takes a string that is not
closed unread. Both come to the same (`scanning_reflects_validity`).

Tokens begin and end at offsets at which the source is read step by step, whatever it
holds (`offset_mem_offsets`, `stop_mem_offsets`). Over a text each step is a character,
so these offsets are boundaries between characters (`isValid_of_mem_offsets`), and what
a cause would say of malformed bytes cannot be true there. In the other direction, a
source without an error is made of words and spaces, all of them valid
(`WellFormed.undecoded_eq_nil`).

**What it does not establish.** An error does not show that a source is invalid, since a
stray character is an error of a valid one. And where an invalid source is malformed is
said by the causes (`lastCause_truthful`), and not here: a string that is not closed is
reported as such, whatever it holds.
-/

namespace ByteLexer

/-! ## Boundaries of a text -/

namespace Utf8

variable {text : String} {offset stop : Nat}

/-- From a boundary on, what is left is valid. -/
theorem undecoded_bytesFrom (h : String.Pos.Raw.IsValid text ⟨offset⟩) :
    undecoded (bytesFrom text.toByteArray offset) = [] := by
  have hbefore := h.isValidUTF8_extract_zero
  rw [extract_eq, Nat.sub_zero, isValidUTF8_iff_undecoded] at hbefore
  have hwhole := isValidUTF8_iff_bytesFrom.1 text.isValidUTF8
  rw [← List.take_append_drop offset (bytesFrom text.toByteArray 0), undecoded_append hbefore,
    drop_bytesFrom, Nat.zero_add] at hwhole
  exact hwhole

/-- A boundary that is not the end of the text stands before a character. -/
theorem begins_of_isValid (h : String.Pos.Raw.IsValid text ⟨offset⟩)
    (hlt : offset < text.toByteArray.size) : Begins (bytesFrom text.toByteArray offset) := by
  by_contra hbegins
  have hnil := undecoded_bytesFrom h
  rw [undecoded_of_not_begins hbegins] at hnil
  exact bytesFrom_ne_nil hlt hnil

/-- Valid bytes lead from one boundary to another. -/
theorem isValid_of_extract (h : String.Pos.Raw.IsValid text ⟨offset⟩) (hle : offset ≤ stop)
    (hinside : stop ≤ text.toByteArray.size)
    (hvalid : (text.toByteArray.extract offset stop).IsValidUTF8) :
    String.Pos.Raw.IsValid text ⟨stop⟩ := by
  refine String.Pos.Raw.isValid_iff_isValidUTF8_extract_zero.2 ⟨hinside, ?_⟩
  show (text.toByteArray.extract 0 stop).IsValidUTF8
  rw [ByteArray.extract_eq_extract_append_extract offset (Nat.zero_le _) hle]
  exact h.isValidUTF8_extract_zero.append hvalid

/-- A step from a boundary takes a character, and comes to a boundary. -/
theorem isValid_add_width (h : String.Pos.Raw.IsValid text ⟨offset⟩) {step : Step}
    (hstep : readAt text.toByteArray offset = some step) :
    String.Pos.Raw.IsValid text ⟨offset + step.width⟩ := by
  rcases readAt_cases hstep with ⟨c, hc, rfl⟩ | ⟨hbegins, -⟩
  · refine isValid_of_extract h (Nat.le_add_right _ _) (add_width_le_size hstep) ?_
    rw [extract_eq, Nat.add_sub_cancel_left, ← String.length_utf8EncodeChar,
      ← List.prefix_iff_eq_take.1 hc]
    exact isValidUTF8_iff.2 ⟨[c], (List.append_nil _).symm⟩
  · exact absurd (begins_of_isValid h (lt_of_readAt hstep)) hbegins

theorem isValid_of_mem_offsetsFrom {first : Nat} (h : String.Pos.Raw.IsValid text ⟨first⟩)
    (hoffset : offset ∈ offsetsFrom text.toByteArray first) :
    String.Pos.Raw.IsValid text ⟨offset⟩ := by
  fun_induction offsetsFrom text.toByteArray first with
  | case1 first step hstep ih =>
    obtain rfl | hlater := List.mem_cons.1 hoffset
    · exact h
    · exact ih (isValid_add_width h hstep) hlater
  | case2 first hnone =>
    rw [List.mem_singleton.1 hoffset]
    exact h

/-- A text is read at boundaries between its characters. -/
theorem isValid_of_mem_offsets (h : offset ∈ offsets text.toByteArray) :
    String.Pos.Raw.IsValid text ⟨offset⟩ :=
  isValid_of_mem_offsetsFrom String.Pos.Raw.isValid_zero h

end Utf8

/-- Well-formed bytes are valid. -/
theorem WellFormed.undecoded_eq_nil {bytes : List UInt8} (h : WellFormed bytes) :
    Utf8.undecoded bytes = [] := by
  obtain ⟨pieces, hpieces, rfl⟩ := h
  induction pieces with
  | nil => exact Utf8.undecoded_of_not_begins Utf8.not_begins_nil
  | cons piece pieces ih =>
    obtain ⟨hpiece, hrest⟩ := List.forall_mem_cons.1 hpieces
    have hvalid : Utf8.undecoded piece = [] := by
      cases hpiece with
      | space hspace =>
        exact Utf8.undecoded_of_ascii
          (List.forall_mem_singleton.2 (ByteClass.lt_of_space _ hspace))
      | word hword => exact hword.valid
    rw [List.flatten_cons, Utf8.undecoded_append hvalid, ih hrest]

namespace Scanner

variable {scanner : Scanner}

/-! ## Where tokens begin and end -/

/-- A token begins where the source is read. -/
theorem offset_mem_offsets (h : scanner.cursor.ReadAhead) (hvisited : scanner.cursor.Visited) :
    scanner.next.1.offset ∈ Utf8.offsets scanner.source := by
  have hskip : (scanner.cursor.skipWhile CharClass.isSpace).Visited :=
    Cursor.visited_skipWhile h hvisited
  have hle : scanner.startOffset ≤ scanner.cursor.source.size := by
    have hprefix := (List.takeWhile_prefix (l := scanner.rest) ByteClass.isSpace).length_le
    have hlength := h.position_add_length
    exact Nat.le_trans (Nat.add_le_add_left hprefix _) (Nat.le_of_eq hlength)
  rw [skipSpace_eq h, Cursor.Visited, Cursor.position_moveTo, Cursor.source_moveTo,
    Nat.min_eq_left hle] at hskip
  rw [offset_next h]
  exact hskip

/-- Its text ends where the source is read. -/
theorem stop_mem_offsets (h : scanner.cursor.ReadAhead) (hvisited : scanner.cursor.Visited) :
    scanner.next.1.offset + scanner.next.1.text.utf8ByteSize ∈ Utf8.offsets scanner.source := by
  have hoffset := offset_mem_offsets h hvisited
  rcases next_cases h with ⟨htoken, -⟩ | ⟨kind, word, -, hword, htoken, hafter, -⟩ |
    ⟨_, _, _, _, -, -, -, htoken, -⟩
  · rw [htoken] at hoffset ⊢
    exact hoffset
  · have hnext : scanner.next.2.offset ∈ Utf8.offsets scanner.next.2.source :=
      visited_next h hvisited
    rw [hafter, source_next h] at hnext
    rw [htoken, hword.utf8ByteSize_text]
    exact hnext
  · rw [htoken] at hoffset ⊢
    exact hoffset

/-! ## Scanning a text -/

section

variable {text : String}

/-- At a boundary of a text no cause is true that says of bytes that they are malformed. -/
theorem ne_malformedBytes_of_blamed {first stop : Nat} {cause : Cause}
    (h : String.Pos.Raw.IsValid text ⟨first⟩)
    (hblamed : Blamed text.toByteArray first cause stop) (offset length : Nat) :
    cause ≠ .malformedBytes offset length := by
  cases hblamed with
  | unclosedQuote => exact nofun
  | strayCharacter => exact nofun
  | malformedBytes hinside hbegins => exact absurd (Utf8.begins_of_isValid h hinside) hbegins
  | @malformedQuote place close _ hclose _ _ hinside hbegins hend hvalid =>
    -- up to the bytes that are blamed the string is valid, so they stand at a boundary too
    obtain ⟨hlt, -⟩ := Array.getElem?_eq_some_iff.1 hclose
    have hplace : place < text.toByteArray.size := by
      have hpos := Utf8.malformedLength_pos (bytesFrom text.toByteArray place)
      have hlt : close < text.toByteArray.size := hlt
      omega
    have hboundary := Utf8.isValid_of_extract h (Nat.le_of_lt hinside) (Nat.le_of_lt hplace) hvalid
    exact absurd (Utf8.begins_of_isValid hboundary hplace) hbegins

theorem isValid_token (text : String) (n : Nat) :
    String.Pos.Raw.IsValid text ⟨((start text.toByteArray).token n).offset⟩ ∧
      String.Pos.Raw.IsValid text ⟨((start text.toByteArray).token n).offset +
        ((start text.toByteArray).token n).text.utf8ByteSize⟩ := by
  have h := readAhead_start text.toByteArray
  have hvisited := visited_after h (Cursor.visited_start text.toByteArray) n
  have hoffset := offset_mem_offsets (readAhead_after h n) hvisited
  have hstop := stop_mem_offsets (readAhead_after h n) hvisited
  rw [source_after h n, source_start] at hoffset hstop
  exact ⟨Utf8.isValid_of_mem_offsets hoffset, Utf8.isValid_of_mem_offsets hstop⟩

/-- What holds of a scanner over a text after some requests. A boundary is what the standard
library calls a valid position of the text, so that whoever holds the text as a string may
cut it at any offset that the scanner gives out. -/
structure OnBoundaries (text : String) (requests : List Request) : Prop where
  /-- The cause that is kept, if one is, says nothing of malformed bytes. -/
  lastCause : ∀ offset length,
    ((start text.toByteArray).through requests).lastCause ≠ some (.malformedBytes offset length)
  /-- The scanner stands between two characters, or at either end of the text. -/
  offset : String.Pos.Raw.IsValid text ⟨((start text.toByteArray).through requests).offset⟩
  /-- So does each token that was handed out, where it begins and where it ends. -/
  token : ∀ token ∈ (start text.toByteArray).handedOut requests,
    String.Pos.Raw.IsValid text ⟨token.offset⟩ ∧
    String.Pos.Raw.IsValid text ⟨token.offset + token.text.utf8ByteSize⟩ ∧
    (text.utf8ByteSize < UInt64.size →
      token.stop = .ok (token.offset + token.text.utf8ByteSize))

theorem onBoundaries (text : String) (requests : List Request) : OnBoundaries text requests where
  lastCause offset length hlast := by
    have h := readAhead_start text.toByteArray
    obtain ⟨n, -, hthrough⟩ := exists_after (start text.toByteArray) requests
    rw [hthrough] at hlast
    obtain ⟨i, -, -, -, -, hblamed⟩ := lastCause_eq h rfl hlast
    rw [source_start] at hblamed
    exact ne_malformedBytes_of_blamed (isValid_token text i).1 hblamed offset length rfl
  offset := by
    have hreachable : Reachable text.toByteArray ((start text.toByteArray).through requests) :=
      ⟨requests, rfl⟩
    exact Utf8.isValid_of_mem_offsets hreachable.primed.visited
  token token htoken := by
    obtain ⟨n, htokens, -⟩ := exists_after (start text.toByteArray) requests
    rw [htokens] at htoken
    obtain ⟨i, -, rfl⟩ := List.mem_map.1 htoken
    obtain ⟨hoffset, hstop⟩ := isValid_token text i
    refine ⟨hoffset, hstop, fun hsize => Word.add_eq_ok (Nat.lt_of_le_of_lt ?_ hsize)⟩
    exact hstop.le_rawEndPos

end

/-! ## Scanning anything else -/

/-- Where no token is an error the source is valid. -/
theorem isValidUTF8_of_tokenize {source : ByteArray}
    (h : ∀ token ∈ tokenize source, token.isError = false) : source.IsValidUTF8 := by
  rw [tokenize_eq_map_calls, List.forall_mem_map] at h
  have hvalid := (wellFormed_of_calls (readAhead_start source) h).undecoded_eq_nil
  rw [rest_start] at hvalid
  exact Utf8.isValidUTF8_iff_bytesFrom.2 hvalid

/-- **Scanning reflects validity.** A valid source is the encoding of a text, and
scanning it keeps to the boundaries of that text; any other source has an error among
its tokens. Validity is the standard library's, of the whole source at once, which no
part of the scanner ever asks for: strings are validated one by one, and what lies between
tokens is read character by character. -/
theorem scanning_reflects_validity (source : ByteArray) :
    (source.IsValidUTF8 → ∃ text : String, text.toByteArray = source ∧
      ∀ requests, OnBoundaries text requests) ∧
    (¬source.IsValidUTF8 → ∃ token ∈ tokenize source, token.isError = true) := by
  constructor
  · intro hvalid
    exact ⟨String.fromUTF8 source hvalid, rfl, onBoundaries _⟩
  · intro hinvalid
    by_contra hnone
    apply hinvalid
    apply isValidUTF8_of_tokenize
    intro token htoken
    exact Bool.eq_false_iff.2 fun herror => hnone ⟨token, htoken, herror⟩

end Scanner

end ByteLexer
