import ByteLexer.Proofs.Scan.Run

/-!
# A source has the tokens of its bytes

`lexFrom` is the grammar as a recursion on the bytes that are left: spaces
are dropped, one lexeme is taken off the front, and so on to the end. It has
no cursor and reads nothing ahead. `tokenize_eq_lexFrom` says that the
scanner gives these tokens for every source, valid or not.

**What it takes as given.** The rules themselves: that `lexeme` says what a token should
be is for a reader of `ByteLexer.Proofs.Scan.Lexeme` to judge, and only that the
scanner keeps to it is proved. The theorem speaks of tokens. Which cause is kept with an
error is in the lexeme as well, and is followed in `ByteLexer.Proofs.Scan.Blame`.
-/

namespace ByteLexer

/-- The tokens of some bytes, of which the first is at `offset`. This is the
scanner as one would write it down who does not mind how often a byte is looked at: no
state is carried from one token to the next but the offset and the bytes that are left. -/
def lexFrom (offset : Nat) (bytes : List UInt8) : List Token :=
  let start := offset + (bytes.takeWhile ByteClass.isSpace).length
  match _h : bytes.dropWhile ByteClass.isSpace with
  | [] => [.endOfInput (offset + bytes.length)]
  | first :: rest =>
    let found := lexeme start first rest
    Lexeme.token start found.1 :: lexFrom (start + found.2) ((first :: rest).drop found.2)
termination_by bytes.length
decreasing_by
  have hsize := lexeme_size (offset + (bytes.takeWhile ByteClass.isSpace).length) first rest
  have hle := (List.dropWhile_suffix (p := ByteClass.isSpace) (l := bytes)).length_le
  rw [_h, List.length_cons] at hle
  rw [List.length_drop, List.length_cons]
  omega

theorem lexFrom_of_nil {offset : Nat} {bytes : List UInt8}
    (h : bytes.dropWhile ByteClass.isSpace = []) :
    lexFrom offset bytes = [.endOfInput (offset + bytes.length)] := by
  rw [lexFrom]
  split
  · rfl
  · rename_i first rest hcons
    rw [h] at hcons
    cases hcons

theorem lexFrom_of_cons {offset start : Nat} {bytes rest : List UInt8} {first : UInt8}
    (h : bytes.dropWhile ByteClass.isSpace = first :: rest)
    (hstart : offset + (bytes.takeWhile ByteClass.isSpace).length = start) :
    lexFrom offset bytes =
      Lexeme.token start (lexeme start first rest).1 ::
        lexFrom (start + (lexeme start first rest).2)
          ((first :: rest).drop (lexeme start first rest).2) := by
  subst hstart
  rw [lexFrom]
  split
  · rename_i hnil
    rw [h] at hnil
    cases hnil
  · rename_i first' rest' hcons
    rw [h] at hcons
    cases hcons
    rfl

namespace Scanner

variable {scanner : Scanner}

theorem drainOnto_of_finished (h : scanner.finished = true) (taken : Array Token) :
    scanner.drainOnto taken = (taken, scanner) := by
  have hyield : scanner.yield? = (none, scanner) := if_pos h
  rw [drainOnto]
  split
  · rename_i token after hsome
    rw [hyield] at hsome
    cases hsome
  · rename_i after hnone
    rw [hyield] at hnone
    cases hnone
    rfl

theorem drainOnto_of_not_finished (h : scanner.finished = false) (taken : Array Token) :
    scanner.drainOnto taken =
      { scanner.next.2 with finished := scanner.next.1.isEndOfInput }.drainOnto
        (taken.push scanner.next.1) := by
  have hyield : scanner.yield? = (some scanner.next.1,
      { scanner.next.2 with finished := scanner.next.1.isEndOfInput }) := by
    rw [yield?, h]
    rfl
  conv => lhs; rw [drainOnto]
  split
  · rename_i token after hsome
    rw [hyield] at hsome
    cases hsome
    rfl
  · rename_i after hnone
    rw [hyield] at hnone
    cases hnone

/-- A scanner that has read ahead still hands out the tokens of the bytes
that are left. -/
theorem drainOnto_eq (scanner : Scanner) (h : scanner.cursor.ReadAhead)
    (hfinished : scanner.finished = false) (taken : Array Token) :
    (scanner.drainOnto taken).1.toList = taken.toList ++ lexFrom scanner.offset scanner.rest := by
  -- on the number of bytes that are left, since a lexeme takes any number of them
  induction hn : scanner.rest.length using Nat.strong_induction_on generalizing scanner taken with
  | _ n ih =>
    subst hn
    rw [drainOnto_of_not_finished hfinished]
    cases hrest : scanner.rest.dropWhile ByteClass.isSpace with
    | nil =>
      have hsize : scanner.offset + scanner.rest.length = scanner.source.size :=
        h.position_add_length
      rw [lexFrom_of_nil hrest, hsize, next_eq_of_nil h hrest, drainOnto_of_finished rfl]
      exact Array.toList_push
    | cons first more =>
      have hmore : scanner.next.2.rest.length < scanner.rest.length := by
        have hle := (List.dropWhile_suffix (p := ByteClass.isSpace) (l := scanner.rest)).length_le
        have hsize := lexeme_size scanner.startOffset first more
        rw [rest_next_of_cons h hrest, List.length_drop]
        rw [hrest, List.length_cons] at hle
        rw [List.length_cons]
        omega
      have htoken : scanner.next.1 =
          Lexeme.token scanner.startOffset (lexeme scanner.startOffset first more).1 := by
        rw [next_eq_of_cons h hrest]
      have hopen : scanner.next.1.isEndOfInput = false := by
        rw [htoken]
        exact isEndOfInput_lexeme _ _ _
      have hstart : scanner.offset + (scanner.rest.takeWhile ByteClass.isSpace).length =
          scanner.startOffset := rfl
      have hlater := ih _ hmore { scanner.next.2 with finished := scanner.next.1.isEndOfInput }
        (readAhead_next h) hopen (taken.push scanner.next.1) rfl
      rw [hlater, lexFrom_of_cons hrest hstart, ← htoken, ← rest_next_of_cons h hrest,
        ← offset_next_of_cons h hrest, Array.toList_push, List.append_assoc]
      rfl

end Scanner

/-- **A source has the tokens of its bytes**, whatever they are: kinds, texts and
offsets, in this order and no more, with the end of the source behind the last. Nothing
is asked of the source. What carries it is that one call hands out one lexeme
(`Scanner.next_eq_of_cons`), and that the scanner is left with the bytes behind it. -/
theorem tokenize_eq_lexFrom (source : ByteArray) :
    tokenize source = lexFrom 0 source.data.toList := by
  have h := Scanner.drainOnto_eq (.start source) (Cursor.readAhead_start source) rfl #[]
  have hrest : (Scanner.start source).rest = source.data.toList := by
    show bytesFrom (Cursor.start source).source (Cursor.start source).position = _
    rw [Cursor.source_start, Cursor.position_start]
    rfl
  have hoffset : (Scanner.start source).offset = 0 := Cursor.position_start source
  rw [hrest, hoffset] at h
  exact h

end ByteLexer
