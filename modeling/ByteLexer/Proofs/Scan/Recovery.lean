import ByteLexer.Proofs.Scan.Calls
import ByteLexer.Proofs.Scan.Spelling
import ByteLexer.Proofs.Scan.Tiling

/-!
# Recovery from errors is local

What an error takes is lost, and nothing else is. Overwrite with spaces every
byte that some call has taken for an error: the source that this leaves is
scanned without an error, and its tokens are those of the original without the
error tokens, at the offsets where they were (`tokenize_blanked`).

The two runs are compared call by call (`lexFrom_blankFrom`). What a call takes
lies behind everything taken before and in front of everything taken later
(`startOffset_le_of_mem_calls`), so that blanking comes to blanking what this
call took, if it was an error, and the rest by itself (`blankFrom_next`). A word
stays the word it was: behind it stands what stood there, or else a space.

**What it does not establish.** It is the bytes that the scanner took for errors that are
overwritten, and those may be more than what was wrong: of a string that is never closed,
all the rest of the source is lost. That so much has to be lost is not claimed, only that
nothing besides is.
-/

namespace ByteLexer

/-! ## Blanking -/

/-- The byte of the character that is written over what is lost. -/
def spaceByte : UInt8 := 0x20

/-- The bytes, the first of which is at an offset, with a space at each offset
that is marked. -/
def blankFrom (marked : Nat → Bool) (offset : Nat) (bytes : List UInt8) : List UInt8 :=
  bytes.mapIdx fun i byte => if marked (offset + i) then spaceByte else byte

section

variable {marked other : Nat → Bool} {offset : Nat}

theorem blankFrom_append (first second : List UInt8) :
    blankFrom marked offset (first ++ second) =
      blankFrom marked offset first ++ blankFrom marked (offset + first.length) second := by
  rw [blankFrom, List.mapIdx_append, blankFrom, blankFrom]
  simp only [Nat.add_comm, Nat.add_left_comm]

/-- Only the marks on the bytes matter. -/
theorem blankFrom_congr {bytes : List UInt8}
    (h : ∀ i, offset ≤ i → i < offset + bytes.length → marked i = other i) :
    blankFrom marked offset bytes = blankFrom other offset bytes := by
  rw [blankFrom, blankFrom, List.mapIdx_eq_mapIdx_iff]
  intro i hi
  rw [h (offset + i) (Nat.le_add_right _ _) (Nat.add_lt_add_left hi _)]

theorem blankFrom_of_not {bytes : List UInt8}
    (h : ∀ i, offset ≤ i → i < offset + bytes.length → marked i = false) :
    blankFrom marked offset bytes = bytes := by
  apply List.ext_getElem List.length_mapIdx
  intro i _ hi
  simp [h _ (Nat.le_add_right _ _) (Nat.add_lt_add_left hi _)]

theorem blankFrom_of_all {bytes : List UInt8}
    (h : ∀ i, offset ≤ i → i < offset + bytes.length → marked i = true) :
    blankFrom marked offset bytes = List.replicate bytes.length spaceByte := by
  apply List.ext_getElem (List.length_mapIdx.trans List.length_replicate.symm)
  intro i _ hi
  rw [List.length_replicate] at hi
  simp [h _ (Nat.le_add_right _ _) (Nat.add_lt_add_left hi _)]

/-- A word that nothing goes on with does not go on with it blanked either. -/
theorem takeWhile_blankFrom {kind : Kind} {bytes : List UInt8}
    (h : bytes.takeWhile kind.continues = []) :
    (blankFrom marked offset bytes).takeWhile kind.continues = [] := by
  rw [takeWhile_eq_nil_iff] at h ⊢
  cases bytes with
  | nil => rfl
  | cons byte bytes =>
    rw [blankFrom, List.mapIdx_cons, List.head?_cons, Option.any_some]
    split
    · exact Kind.not_continues_of_isSpace rfl
    · exact h

end

/-- Whether the call took the byte at an offset for an error. -/
def Call.blames (call : Call) (i : Nat) : Bool :=
  call.isError && (decide (call.token.offset ≤ i) && decide (i < call.after.offset))

/-- Whether some call up to the end of the source takes the byte at an offset for an error. -/
def Scanner.blames (scanner : Scanner) (i : Nat) : Bool :=
  scanner.calls.any (·.blames i)

/-- The source with a space in place of each byte that is taken for an error. Its length is
that of the source, so an offset means the same in both. -/
def blanked (source : ByteArray) : ByteArray :=
  ⟨source.data.mapIdx fun i byte =>
    if (Scanner.start source).blames i then spaceByte else byte⟩

namespace Scanner

variable {scanner : Scanner}

/-! ## Where errors lie -/

theorem startOffset_le_of_mem_calls (h : scanner.cursor.ReadAhead) {call : Call}
    (hcall : call ∈ scanner.calls) : scanner.startOffset ≤ call.token.offset := by
  have hfirst : ∀ {scanner : Scanner}, scanner.cursor.ReadAhead →
      scanner.startOffset ≤ scanner.call.token.offset := fun h => Nat.le_of_eq (offset_next h).symm
  fun_induction calls scanner with
  | case1 scanner hend =>
    rw [List.mem_singleton.1 hcall]
    exact hfirst h
  | case2 scanner hend ih =>
    obtain rfl | hcall := List.mem_cons.1 hcall
    · exact hfirst h
    · have htaken := (tile_next h).le_after
      rw [offset_next h] at htaken
      exact Nat.le_trans htaken (Nat.le_trans (Nat.le_add_right _ _) (ih (readAhead_next h) hcall))

theorem blames_of_lt (h : scanner.cursor.ReadAhead) {i : Nat} (hi : i < scanner.startOffset) :
    scanner.blames i = false := by
  refine List.any_eq_false.2 fun call hcall hblames => ?_
  have hle := startOffset_le_of_mem_calls h hcall
  rw [Call.blames, Bool.and_eq_true, Bool.and_eq_true, decide_eq_true_eq] at hblames
  omega

theorem blames_of_not_isEndOfInput (hopen : scanner.next.1.isEndOfInput = false) (i : Nat) :
    scanner.blames i = (scanner.call.blames i || scanner.next.2.blames i) := by
  rw [blames, calls_of_not_isEndOfInput hopen, List.any_cons, blames]

/-- Blanking comes to blanking what the next call takes, if it is an error, and
the rest by itself. -/
theorem blankFrom_next (h : scanner.cursor.ReadAhead)
    (hopen : scanner.next.1.isEndOfInput = false) {taken : List UInt8}
    (hsplit : scanner.rest.dropWhile ByteClass.isSpace = taken ++ scanner.next.2.rest)
    (hoffset : scanner.next.2.offset = scanner.startOffset + taken.length) :
    blankFrom scanner.blames scanner.offset scanner.rest =
      scanner.rest.takeWhile ByteClass.isSpace ++
        ((if scanner.call.isError then List.replicate taken.length spaceByte else taken) ++
          blankFrom scanner.next.2.blames scanner.next.2.offset scanner.next.2.rest) := by
  have hrest : scanner.rest = scanner.rest.takeWhile ByteClass.isSpace ++
      (taken ++ scanner.next.2.rest) := by
    rw [← hsplit, List.takeWhile_append_dropWhile]
  have hstart : scanner.offset + (scanner.rest.takeWhile ByteClass.isSpace).length =
      scanner.startOffset := rfl
  have hgap : blankFrom scanner.blames scanner.offset
      (scanner.rest.takeWhile ByteClass.isSpace) = scanner.rest.takeWhile ByteClass.isSpace :=
    blankFrom_of_not fun i _ hi => blames_of_lt h hi
  have htaken : ∀ i, scanner.startOffset ≤ i → i < scanner.startOffset + taken.length →
      scanner.blames i = scanner.call.isError := by
    intro i hle hlt
    have hlater : scanner.next.2.blames i = false :=
      blames_of_lt (readAhead_next h) (Nat.lt_of_lt_of_le (hoffset ▸ hlt) (Nat.le_add_right _ _))
    have hfrom : scanner.call.token.offset ≤ i := (offset_next h).symm ▸ hle
    have hto : i < scanner.call.after.offset := hoffset.symm ▸ hlt
    rw [blames_of_not_isEndOfInput hopen, hlater, Bool.or_false, Call.blames,
      decide_eq_true hfrom, decide_eq_true hto, Bool.and_true, Bool.and_true]
  have hlater : ∀ i, scanner.next.2.offset ≤ i → scanner.blames i = scanner.next.2.blames i := by
    intro i hle
    have hto : ¬i < scanner.call.after.offset := Nat.not_lt.2 hle
    rw [blames_of_not_isEndOfInput hopen, Call.blames, decide_eq_false hto, Bool.and_false,
      Bool.and_false, Bool.false_or]
  conv => lhs; rw [hrest]
  rw [blankFrom_append, blankFrom_append, hgap, hstart, ← hoffset,
    blankFrom_congr fun i hi _ => hlater i hi]
  cases herror : scanner.call.isError with
  | true =>
    rw [blankFrom_of_all fun i hle hlt => (htaken i hle hlt).trans herror]
    rfl
  | false =>
    rw [blankFrom_of_not fun i hle hlt => (htaken i hle hlt).trans herror]
    rfl

/-- Blanked, the rest of a source has the tokens of the run without the errors. On the calls
of the run: what a word takes is left as it was, and what an error takes becomes spaces,
which the next token has before it. -/
theorem lexFrom_blankFrom (h : scanner.cursor.ReadAhead) :
    lexFrom scanner.offset (blankFrom scanner.blames scanner.offset scanner.rest) =
      (scanner.calls.map Call.token).filter (fun token => !token.isError) := by
  fun_induction calls scanner with
  | case1 scanner hend =>
    have herror : scanner.call.token.isError = false := by
      rw [call, next_eq_of_nil h ((isEndOfInput_next_iff h).1 hend)]
      rfl
    have hcalls := calls_of_isEndOfInput hend
    have hnone : ∀ i, scanner.blames i = false := by
      intro i
      rw [blames, hcalls, List.any_cons, List.any_nil, Call.blames, Call.isError, herror]
      rfl
    rw [blankFrom_of_not fun i _ _ => hnone i, ← map_token_calls h, hcalls, List.map_singleton,
      List.filter_cons_of_pos (by rw [herror]; rfl), List.filter_nil]
  | case2 scanner hend ih =>
    have hopen := Bool.eq_false_iff.2 hend
    have hspaces : ∀ byte ∈ scanner.rest.takeWhile ByteClass.isSpace,
        ByteClass.isSpace byte = true := List.all_eq_true.1 List.all_takeWhile
    rcases next_spelling h (mt (isEndOfInput_next_iff h).2 hend) with
      ⟨kind, word, hword, hsplit, hstop, htoken, hoffset⟩ | ⟨bad, -, hsplit, htoken, hoffset⟩
    · have herror : scanner.call.isError = false := by
        rw [Call.isError, call, htoken]
        exact (Bool.or_eq_false_iff.1 hword.not_isReserved).1
      rw [blankFrom_next h hopen hsplit hoffset, lexFrom_append_spaces _ hspaces, herror,
        if_neg Bool.false_ne_true, lexFrom_append_of_stop _ hword (takeWhile_blankFrom hstop),
        List.map_cons, List.filter_cons_of_pos (Bool.not_eq_true' _ ▸ herror),
        ← ih (readAhead_next h), hoffset]
      exact congrArg (· :: _) htoken.symm
    · have herror : scanner.call.isError = true := by
        rw [Call.isError, call, htoken]
        rfl
      -- what it took is now part of the spaces before the next word
      have hblank : ∀ byte ∈ List.replicate bad.length spaceByte,
          ByteClass.isSpace byte = true := by
        intro byte hbyte
        rw [List.eq_of_mem_replicate hbyte]
        rfl
      rw [blankFrom_next h hopen hsplit hoffset, lexFrom_append_spaces _ hspaces, herror,
        if_pos rfl, lexFrom_append_spaces _ hblank, List.length_replicate, List.map_cons,
        List.filter_cons_of_neg (by rw [← Call.isError, herror]; exact Bool.false_ne_true),
        ← ih (readAhead_next h), hoffset]
      rfl

end Scanner

/-- **Recovery is local.** With spaces in place of what is taken for errors, a
source is scanned without an error, and its tokens are the same but for the
error tokens: same kinds, same texts, same offsets. So an error changes nothing about what
stands before it or behind it, and a run that goes on after errors can be trusted in the
rest. -/
theorem tokenize_blanked (source : ByteArray) :
    (∀ token ∈ tokenize (blanked source), token.isError = false) ∧
      tokenize (blanked source) = (tokenize source).filter (fun token => !token.isError) := by
  have h := Scanner.readAhead_start source
  have hbytes : (blanked source).data.toList = blankFrom (Scanner.start source).blames
      (Scanner.start source).offset (Scanner.start source).rest := by
    rw [blanked, Array.toList_mapIdx, blankFrom, Scanner.rest_start, Scanner.offset_start]
    simp only [Nat.zero_add]
  have htokens : tokenize (blanked source) =
      (tokenize source).filter (fun token => !token.isError) := by
    rw [Scanner.tokenize_eq_map_calls, Scanner.map_token_calls_start, hbytes,
      Scanner.tokenize_eq_map_calls, ← Scanner.lexFrom_blankFrom h, Scanner.offset_start]
  refine ⟨?_, htokens⟩
  intro token htoken
  rw [htokens, List.mem_filter] at htoken
  simpa using htoken.2

end ByteLexer
