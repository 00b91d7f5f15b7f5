import ByteLexer.Proofs.Scan.Run

/-!
# The kept cause is the truth about the last error

An error token says where scanning failed, and the cause that the scanner
keeps says why. `Blamed` is what each cause claims about the source, in
terms of the source alone: where quotation marks stand, which bytes are an
encoding, where none begins.

A cause is kept with an error token and with no other token (`next_blamed`),
so that after any number of calls the kept cause is that of the last error
(`lastCause_eq`). The claims are also enough: where one of them holds of the
place where a token starts, the token is an error with that cause
(`next_of_blamed`).

**What it does not establish.** There is one place for a cause, and an error replaces
what stood there; the causes of earlier errors are not kept by the scanner, and whoever
wants them has to read them in time (`ByteLexer.Proofs.Command.Accounting`). Nor is a
claim the only one that could be made: a string left open may be malformed as well, and
that is not what is said of it.
-/

namespace ByteLexer

/-- A quotation mark stands at an offset. -/
def QuoteAt (source : ByteArray) (offset : Nat) : Prop :=
  source.data[offset]? = some CharClass.quoteByte

/-- What a cause claims about the source, if the error token starts at
`start` and the scanner then stands at the last argument. It is stated without the
scanner: a claim can be checked by someone who has nothing but the source, and a cause
that did not fit its error would be refuted by it. -/
inductive Blamed (source : ByteArray) (start : Nat) : Cause → Nat → Prop
  /-- A string opens here and is not closed. -/
  | unclosedQuote (hopen : QuoteAt source start) (hnone : ∀ i, start < i → ¬QuoteAt source i) :
      Blamed source start (.unclosedQuote start) source.size
  /-- A character stands here, and no token starts with it. -/
  | strayCharacter {c : Char} {stop : Nat} (hinside : stop ≤ source.size)
      (hchar : source.extract start stop = (String.utf8EncodeChar c).toByteArray)
      (hnothing : StartsNothing c) : Blamed source start (.strayCharacter c start) stop
  /-- Bytes stand here that begin with no character. -/
  | malformedBytes (hinside : start < source.size)
      (hbegins : ¬Utf8.Begins (bytesFrom source start)) :
      Blamed source start
        (.malformedBytes start (Utf8.malformedLength (bytesFrom source start)))
        (start + Utf8.malformedLength (bytesFrom source start))
  /-- A string opens here and is closed, and some way into it stand bytes
  that begin with no character, up to which it is valid. -/
  | malformedQuote {offset close : Nat} (hopen : QuoteAt source start)
      (hclose : QuoteAt source close) (hlt : start < close)
      (hfirst : ∀ i, start < i → i < close → ¬QuoteAt source i) (hinside : start < offset)
      (hbegins : ¬Utf8.Begins (bytesFrom source offset))
      (hend : offset + Utf8.malformedLength (bytesFrom source offset) ≤ close)
      (hvalid : (source.extract start offset).IsValidUTF8) :
      Blamed source start
        (.malformedBytes offset (Utf8.malformedLength (bytesFrom source offset))) (close + 1)

section

variable {source : ByteArray} {start : Nat} {first : UInt8} {more : List UInt8}

/-! ## Places in a source -/

theorem quoteAt_iff {source : ByteArray} {offset : Nat} :
    QuoteAt source offset ↔ (bytesFrom source offset)[0]? = some CharClass.quoteByte := by
  rw [QuoteAt, bytesFrom, List.getElem?_drop, Nat.add_zero, Array.getElem?_toList]

/-- Behind the first byte, a quotation mark of the source is one of the list. -/
theorem quoteAt_add_iff (h : bytesFrom source start = first :: more) {i : Nat} :
    QuoteAt source (start + 1 + i) ↔ more[i]? = some CharClass.quoteByte := by
  rw [quoteAt_iff, ← drop_bytesFrom, bytesFrom_add_one h, List.getElem?_drop, Nat.add_zero]

theorem quoteAt_start_iff (h : bytesFrom source start = first :: more) :
    QuoteAt source start ↔ first = CharClass.quoteByte := by
  rw [quoteAt_iff, h, List.getElem?_cons_zero, Option.some.injEq]

theorem forall_not_quoteAt_iff (h : bytesFrom source start = first :: more) :
    (∀ i, start < i → ¬QuoteAt source i) ↔ CharClass.quoteByte ∉ more := by
  rw [List.mem_iff_getElem?, not_exists]
  constructor
  · intro hnone i
    rw [← quoteAt_add_iff h]
    exact hnone _ (by omega)
  · intro hnone i hi
    obtain ⟨j, rfl⟩ : ∃ j, i = start + 1 + j := ⟨i - (start + 1), by omega⟩
    rw [quoteAt_add_iff h]
    exact hnone j

/-- The first quotation mark behind the first byte is that of the list. -/
theorem isFirst_iff (h : bytesFrom source start = first :: more) {n : Nat} :
    (QuoteAt source (start + 1 + n) ∧
      ∀ i, start < i → i < start + 1 + n → ¬QuoteAt source i) ↔
    CharClass.quoteByte ∈ more ∧
      (more.takeWhile (· != CharClass.quoteByte)).length = n := by
  rw [quoteAt_add_iff h]
  constructor
  · intro ⟨hbyte, hfirst⟩
    refine ⟨List.mem_of_getElem? hbyte, length_takeWhile_eq hbyte ?_⟩
    intro i hi
    rw [ne_eq, ← quoteAt_add_iff h]
    exact hfirst _ (by omega) (by omega)
  · intro ⟨hmem, hn⟩
    refine ⟨hn ▸ getElem?_length_takeWhile hmem, ?_⟩
    intro i hi hi'
    obtain ⟨j, rfl⟩ : ∃ j, i = start + 1 + j := ⟨i - (start + 1), by omega⟩
    rw [quoteAt_add_iff h]
    exact getElem?_ne_of_lt_takeWhile (by omega)

/-! ## Causes are true -/

theorem blamed_of_closed (h : bytesFrom source start = CharClass.quoteByte :: more)
    (hmem : CharClass.quoteByte ∈ more) {left : List UInt8} (hne : left ≠ [])
    (hleft : Utf8.undecoded (Lexeme.closed more) = left) :
    Blamed source start
      (.malformedBytes (start + ((Lexeme.closed more).length - left.length))
        (Utf8.malformedLength left))
      (start + (Lexeme.closed more).length) := by
  have hopen := (quoteAt_start_iff h).2 rfl
  obtain ⟨hclose, hfirst⟩ := (isFirst_iff h).2 ⟨hmem, rfl⟩
  obtain ⟨tail, htail⟩ := Lexeme.closed_prefix hmem
  obtain ⟨cs, hcs, hbegins⟩ := Utf8.exists_eq_encodeAll (Lexeme.closed more)
  rw [hleft] at hcs hbegins
  rw [← h] at htail
  have hclosed : ¬Utf8.Begins (left ++ tail) ∧
      Utf8.malformedLength (left ++ tail) = Utf8.malformedLength left ∧
      Utf8.malformedLength left < left.length := by
    rw [← hleft, Lexeme.closed] at hne
    rw [← hleft, Lexeme.closed]
    exact Utf8.undecoded_closed (by decide) hne tail
  obtain ⟨hafter, hmalformed, hshort⟩ := hclosed
  -- the mark at the front is a character, so there is one before what is left
  have hpos : 0 < (Utf8.encodeAll cs).length := by
    apply Nat.pos_of_ne_zero
    intro hzero
    apply hbegins
    rw [List.length_eq_zero_iff.1 hzero, List.nil_append] at hcs
    rw [← hcs, Lexeme.closed, List.cons_append, Utf8.begins_cons_iff]
    exact .inl (by decide)
  have hoffset : bytesFrom source (start + (Utf8.encodeAll cs).length) = left ++ tail := by
    rw [← drop_bytesFrom, ← htail, hcs, List.append_assoc, List.drop_left]
  have hvalid : (source.extract start (start + (Utf8.encodeAll cs).length)).IsValidUTF8 := by
    rw [extract_eq, Nat.add_sub_cancel_left, ← htail, hcs, List.append_assoc, List.take_left]
    exact Utf8.isValidUTF8_iff.2 ⟨cs, rfl⟩
  have hlength : (Lexeme.closed more).length = (Utf8.encodeAll cs).length + left.length := by
    rw [hcs, List.length_append]
  have hsize : start + (Lexeme.closed more).length =
      start + 1 + (more.takeWhile (· != CharClass.quoteByte)).length + 1 := by
    rw [Lexeme.length_closed]
    omega
  rw [← hoffset] at hafter hmalformed
  rw [hlength, Nat.add_sub_cancel, ← hmalformed, ← hlength, hsize]
  exact .malformedQuote hopen hclose (by omega) hfirst (by omega) hafter (by omega) hvalid

theorem blamed_of_quoted (h : bytesFrom source start = CharClass.quoteByte :: more) {cause : Cause}
    {size : Nat} (hquoted : Lexeme.quoted start more = (.error cause, size)) :
    Blamed source start cause (start + size) := by
  unfold Lexeme.quoted at hquoted
  by_cases hmem : CharClass.quoteByte ∈ more
  · rw [if_pos hmem] at hquoted
    cases hleft : Utf8.undecoded (Lexeme.closed more) with
    | nil =>
      rw [hleft] at hquoted
      cases hquoted
    | cons byte left =>
      rw [hleft] at hquoted
      cases hquoted
      exact blamed_of_closed h hmem (List.cons_ne_nil byte left) hleft
  · rw [if_neg hmem] at hquoted
    cases hquoted
    rw [← size_of_bytesFrom h]
    exact .unclosedQuote ((quoteAt_start_iff h).2 rfl) ((forall_not_quoteAt_iff h).2 hmem)

theorem blamed_of_stray (h : bytesFrom source start = first :: more)
    (hspace : ByteClass.isSpace first = false)
    (hrules : Kind.ofByte? first = none ∧ ByteClass.isIdentifierStart first = false ∧
      ByteClass.isDigit first = false ∧ first ≠ CharClass.quoteByte) {cause : Cause} {size : Nat}
    (hstray : Lexeme.stray start (first :: more) = (.error cause, size)) :
    Blamed source start cause (start + size) := by
  have hlength := size_of_bytesFrom h
  unfold Lexeme.stray at hstray
  cases hdecode : Utf8.decode? (first :: more) with
  | some c =>
    rw [hdecode] at hstray
    cases hstray
    have hfront := Utf8.decode?_eq_some_iff.1 hdecode
    have hle := hfront.length_le
    rw [String.length_utf8EncodeChar, List.length_cons] at hle
    obtain ⟨bytes, hencode⟩ := Utf8.exists_encode_eq_cons hfront
    have hnothing := (startsNothing_iff_first hencode).2 ⟨hspace, hrules⟩
    refine .strayCharacter (by omega) ?_ hnothing
    rw [extract_eq, Nat.add_sub_cancel_left, h, ← String.length_utf8EncodeChar,
      ← List.prefix_iff_eq_take.1 hfront]
  | none =>
    rw [hdecode] at hstray
    cases hstray
    have hbegins := Utf8.decode?_eq_none_iff.1 hdecode
    rw [← h] at hbegins ⊢
    exact .malformedBytes (by omega) hbegins

/-- The cause of a lexeme that is an error is true. -/
theorem blamed_of_lexeme (h : bytesFrom source start = first :: more)
    (hspace : ByteClass.isSpace first = false) {cause : Cause} {size : Nat}
    (hlexeme : lexeme start first more = (.error cause, size)) :
    Blamed source start cause (start + size) := by
  unfold lexeme at hlexeme
  cases hkind : Kind.ofByte? first with
  | some kind =>
    rw [hkind] at hlexeme
    cases hlexeme
  | none =>
    rw [hkind] at hlexeme
    dsimp only at hlexeme
    by_cases hstart : ByteClass.isIdentifierStart first = true
    · rw [if_pos hstart] at hlexeme
      cases hlexeme
    rw [if_neg hstart] at hlexeme
    by_cases hdigit : ByteClass.isDigit first = true
    · rw [if_pos hdigit] at hlexeme
      cases hlexeme
    rw [if_neg hdigit] at hlexeme
    by_cases hquote : first = CharClass.quoteByte
    · rw [if_pos hquote] at hlexeme
      exact blamed_of_quoted (hquote ▸ h) hlexeme
    · rw [if_neg hquote] at hlexeme
      exact blamed_of_stray h hspace
        ⟨hkind, Bool.eq_false_iff.2 hstart, Bool.eq_false_iff.2 hdigit, hquote⟩ hlexeme

/-! ## True causes are found -/

variable {cause : Cause} {stop : Nat}

/-- Nothing is claimed of the end of the source. -/
theorem Blamed.lt (h : Blamed source start cause stop) : start < source.size := by
  have hquote : QuoteAt source start → start < source.size := by
    intro hopen
    obtain ⟨hlt, -⟩ := Array.getElem?_eq_some_iff.1 hopen
    exact hlt
  cases h with
  | unclosedQuote hopen _ => exact hquote hopen
  | @strayCharacter c _ hinside hchar _ =>
    have hsize := congrArg ByteArray.size hchar
    have hpos := c.utf8Size_pos
    rw [ByteArray.size_extract, List.size_toByteArray, String.length_utf8EncodeChar] at hsize
    omega
  | malformedBytes hinside _ => exact hinside
  | malformedQuote hopen => exact hquote hopen

/-- A closed string with malformed bytes some way into it is left from these on. -/
theorem undecoded_of_malformed {offset n : Nat} (hinside : start ≤ offset)
    (hbefore : offset - start ≤ n) (hbegins : ¬Utf8.Begins (bytesFrom source offset))
    (hvalid : (source.extract start offset).IsValidUTF8) :
    Utf8.undecoded ((bytesFrom source start).take n) =
      (bytesFrom source offset).take (n - (offset - start)) := by
  obtain ⟨cs, hcs⟩ : ∃ cs, (bytesFrom source start).take (offset - start) = Utf8.encodeAll cs := by
    rw [extract_eq] at hvalid
    exact Utf8.isValidUTF8_iff.1 hvalid
  have hnone : ¬Utf8.Begins ((bytesFrom source offset).take (n - (offset - start))) := by
    intro hsome
    have hmore := hsome.append ((bytesFrom source offset).drop (n - (offset - start)))
    rw [List.take_append_drop] at hmore
    exact hbegins hmore
  have hsplit : (bytesFrom source start).take n =
      Utf8.encodeAll cs ++ (bytesFrom source offset).take (n - (offset - start)) := by
    have hoffset : (bytesFrom source start).drop (offset - start) = bytesFrom source offset := by
      rw [drop_bytesFrom, Nat.add_sub_cancel' hinside]
    rw [← hcs, ← hoffset, ← List.take_add, Nat.add_sub_cancel' hbefore]
  rw [hsplit, Utf8.eq_undecoded cs hnone]

theorem quoted_of_malformed {offset close : Nat}
    (h : bytesFrom source start = CharClass.quoteByte :: more) (hclose : QuoteAt source close)
    (hlt : start < close) (hfirst : ∀ i, start < i → i < close → ¬QuoteAt source i)
    (hinside : start < offset) (hbegins : ¬Utf8.Begins (bytesFrom source offset))
    (hend : offset + Utf8.malformedLength (bytesFrom source offset) ≤ close)
    (hvalid : (source.extract start offset).IsValidUTF8) :
    Lexeme.quoted start more =
      (.error (.malformedBytes offset (Utf8.malformedLength (bytesFrom source offset))),
        close + 1 - start) := by
  obtain ⟨n, rfl⟩ : ∃ n, close = start + 1 + n := ⟨close - (start + 1), by omega⟩
  obtain ⟨hmem, hn⟩ := (isFirst_iff h).1 ⟨hclose, hfirst⟩
  have hsize := Lexeme.length_closed more
  rw [hn] at hsize
  have hclosed : Lexeme.closed more = (bytesFrom source start).take (n + 2) := by
    rw [h, ← hsize]
    exact List.prefix_iff_eq_take.1 (Lexeme.closed_prefix hmem)
  have hpos := Utf8.malformedLength_pos (bytesFrom source offset)
  obtain ⟨left, hleft⟩ : ∃ left,
      left = (bytesFrom source offset).take (n + 2 - (offset - start)) := ⟨_, rfl⟩
  have hundecoded : Utf8.undecoded (Lexeme.closed more) = left := by
    rw [hclosed, hleft]
    exact undecoded_of_malformed (Nat.le_of_lt hinside) (by omega) hbegins hvalid
  have hlength : left.length = n + 2 - (offset - start) := by
    have hle := (Lexeme.closed_prefix hmem).length_le
    have hwhole := size_of_bytesFrom h
    rw [List.length_cons] at hle
    rw [hleft, List.length_take, length_bytesFrom]
    omega
  have hmalformed : Utf8.malformedLength left = Utf8.malformedLength (bytesFrom source offset) := by
    rw [hleft]
    exact Utf8.malformedLength_take (by omega)
  rw [Lexeme.quoted, if_pos hmem, hundecoded, hsize, ← hmalformed]
  cases left with
  | nil =>
    rw [List.length_nil] at hlength
    omega
  | cons byte left =>
    dsimp only
    rw [hlength, show start + (n + 2 - (n + 2 - (offset - start))) = offset by omega,
      show start + 1 + n + 1 - start = n + 2 by omega]

/-- Where a claim holds, the lexeme is an error with that cause. So of two claims
about one place at most one is true, and a scanner that reported the wrong one of two
defects would be caught. -/
theorem lexeme_of_blamed (h : bytesFrom source start = first :: more)
    (hblamed : Blamed source start cause stop) :
    start ≤ stop ∧ lexeme start first more = (.error cause, stop - start) := by
  have hsize := size_of_bytesFrom h
  cases hblamed with
  | unclosedQuote hopen hnone =>
    refine ⟨by omega, ?_⟩
    rw [(quoteAt_start_iff h).1 hopen, lexeme_quoteByte, Lexeme.quoted,
      if_neg ((forall_not_quoteAt_iff h).1 hnone), hsize, Nat.add_sub_cancel_left]
  | @strayCharacter c _ hinside hchar hnothing =>
    have hwidth := congrArg ByteArray.size hchar
    rw [ByteArray.size_extract, List.size_toByteArray, String.length_utf8EncodeChar] at hwidth
    have hfront : String.utf8EncodeChar c <+: first :: more := by
      rw [extract_eq, h] at hchar
      have htake := congrArg (fun bytes => bytes.data.toList) hchar
      rw [List.toList_data_toByteArray, List.toList_data_toByteArray] at htake
      rw [← htake]
      exact List.take_prefix _ _
    obtain ⟨bytes, hencode⟩ := Utf8.exists_encode_eq_cons hfront
    have hrules := ((startsNothing_iff_first hencode).1 hnothing).2
    have hpos := c.utf8Size_pos
    refine ⟨by omega, ?_⟩
    rw [lexeme_eq_stray hrules, Lexeme.stray, Utf8.decode?_eq_some_iff.2 hfront]
    dsimp only
    rw [show stop - start = c.utf8Size by omega]
  | malformedBytes hinside hbegins =>
    have hascii : ¬first < 0x80 := by
      intro hlt
      rw [h, Utf8.begins_cons_iff] at hbegins
      exact hbegins (.inl hlt)
    refine ⟨Nat.le_add_right _ _, ?_⟩
    rw [lexeme_eq_stray (ByteClass.not_ascii first hascii), ← h, Lexeme.stray,
      Utf8.decode?_eq_none_iff.2 hbegins, Nat.add_sub_cancel_left]
  | malformedQuote hopen hclose hlt hfirst hinside hbegins hend hvalid =>
    have hquote := (quoteAt_start_iff h).1 hopen
    refine ⟨by omega, ?_⟩
    rw [hquote, lexeme_quoteByte]
    exact quoted_of_malformed (hquote ▸ h) hclose hlt hfirst hinside hbegins hend hvalid

end

namespace Scanner

variable {scanner : Scanner}

/-! ## The kept cause -/

/-- A call that hands out an error keeps a true cause of it, and any other
call keeps the cause that was kept before. -/
theorem next_blamed (h : scanner.cursor.ReadAhead) :
    (scanner.next.1.isError = false ∧ scanner.next.2.lastCause = scanner.lastCause) ∨
    ∃ cause, scanner.next.1.isError = true ∧ scanner.next.2.lastCause = some cause ∧
      Blamed scanner.source scanner.next.1.offset cause scanner.next.2.offset := by
  rw [offset_next h]
  rcases next_cases h with ⟨htoken, -, -, hkept⟩ | ⟨kind, word, hkind, -, htoken, -, hkept⟩ |
    ⟨cause, size, first, more, -, hbytes, hlexeme, htoken, hoffset, hkept⟩
  · left
    rw [htoken]
    exact ⟨rfl, hkept⟩
  · left
    rw [htoken]
    exact ⟨(Bool.or_eq_false_iff.1 hkind).1, hkept⟩
  · right
    rw [htoken, hoffset]
    exact ⟨cause, rfl, hkept, blamed_of_lexeme hbytes (isSpace_startOffset hbytes) hlexeme⟩

/-- Where a claim holds of the place where a token starts, the call hands out
an error and keeps the cause. -/
theorem next_of_blamed (h : scanner.cursor.ReadAhead) {cause : Cause} {stop : Nat}
    (hblamed : Blamed scanner.source scanner.next.1.offset cause stop) :
    scanner.next.1 = .error scanner.next.1.offset ∧ scanner.next.2.lastCause = some cause ∧
      scanner.next.2.offset = stop := by
  rw [offset_next h] at hblamed ⊢
  have hbytes := bytesFrom_of_lt hblamed.lt
  have hrest := scanner.bytesFrom_startOffset.symm.trans hbytes
  obtain ⟨hle, hlexeme⟩ := lexeme_of_blamed hbytes hblamed
  rw [offset_next_of_cons h hrest, next_eq_of_cons h hrest, hlexeme]
  refine ⟨rfl, rfl, ?_⟩
  exact Nat.add_sub_cancel' hle

theorem lastCause_eq_none_iff (h : scanner.cursor.ReadAhead) (hnone : scanner.lastCause = none)
    (n : Nat) : (scanner.after n).lastCause = none ↔
      ∀ i < n, (scanner.token i).isError = false := by
  induction n with
  | zero =>
    constructor
    · intro _ i hi
      exact absurd hi (Nat.not_lt_zero i)
    · intro _
      exact hnone
  | succ n ih =>
    rcases next_blamed (readAhead_after h n) with ⟨herror, hkept⟩ | ⟨cause, herror, hkept, -⟩
    · show (scanner.after n).next.2.lastCause = none ↔ _
      rw [hkept, ih]
      constructor
      · intro hall i hi
        rcases Nat.lt_succ_iff_lt_or_eq.1 hi with hlt | rfl
        · exact hall i hlt
        · exact herror
      · intro hall i hi
        exact hall i (Nat.lt_succ_of_lt hi)
    · show (scanner.after n).next.2.lastCause = none ↔ _
      rw [hkept]
      constructor
      · intro hsome
        cases hsome
      · intro hall
        have hn := hall n (Nat.lt_succ_self n)
        rw [token, herror] at hn
        cases hn

/-- The cause that is kept after some calls is that of the last error. -/
theorem lastCause_eq (h : scanner.cursor.ReadAhead) (hnone : scanner.lastCause = none) {n : Nat}
    {cause : Cause} (hcause : (scanner.after n).lastCause = some cause) :
    ∃ i < n, (scanner.token i).isError = true ∧
      (∀ j < n, i < j → (scanner.token j).isError = false) ∧
      (scanner.after (i + 1)).lastCause = some cause ∧
      Blamed scanner.source (scanner.token i).offset cause (scanner.after (i + 1)).offset := by
  induction n with
  | zero =>
    have hzero : (scanner.after 0).lastCause = none := hnone
    rw [hzero] at hcause
    cases hcause
  | succ n ih =>
    have hsucc : (scanner.after n).next.2.lastCause = some cause := hcause
    rcases next_blamed (readAhead_after h n) with ⟨herror, hkept⟩ | ⟨other, herror, hkept, hblamed⟩
    · rw [hkept] at hsucc
      obtain ⟨i, hi, hi', hlater, hlast⟩ := ih hsucc
      refine ⟨i, Nat.lt_succ_of_lt hi, hi', ?_, hlast⟩
      intro j hj hij
      rcases Nat.lt_succ_iff_lt_or_eq.1 hj with hlt | rfl
      · exact hlater j hlt hij
      · exact herror
    · rw [hkept] at hsucc
      cases hsucc
      rw [source_after h n] at hblamed
      refine ⟨n, Nat.lt_succ_self n, herror, ?_, hcause, hblamed⟩
      intro j hj hij
      omega

/-- **The kept cause is the truth about the last error.** After any number of
calls on any source:

- no cause is kept as long as no error was handed out;
- otherwise the cause is the one kept with the last error, and what it claims
  holds of that error's place;
- and if a claim holds of the place where the next token starts, that token
  is an error, and the cause is kept with it.

The first two are an induction on the calls, in which only an error touches the cause.
The third is what makes the claims more than a consequence: nothing else can be reported
where one of them is true. -/
theorem lastCause_truthful (source : ByteArray) (n : Nat) :
    (((start source).after n).lastCause = none ↔
      ∀ i < n, ((start source).token i).isError = false) ∧
    (∀ cause, ((start source).after n).lastCause = some cause →
      ∃ i < n, ((start source).token i).isError = true ∧
        (∀ j < n, i < j → ((start source).token j).isError = false) ∧
        ((start source).after (i + 1)).lastCause = some cause ∧
        Blamed source ((start source).token i).offset cause
          ((start source).after (i + 1)).offset) ∧
    ∀ cause stop, Blamed source ((start source).token n).offset cause stop →
      (start source).token n = .error ((start source).token n).offset ∧
      ((start source).after (n + 1)).lastCause = some cause ∧
      ((start source).after (n + 1)).offset = stop := by
  have h : (start source).cursor.ReadAhead := Cursor.readAhead_start source
  have hsource : (start source).source = source := Cursor.source_start source
  refine ⟨lastCause_eq_none_iff h rfl n, ?_, ?_⟩
  · intro cause hcause
    have hlast := lastCause_eq h rfl hcause
    rw [hsource] at hlast
    exact hlast
  · intro cause stop hblamed
    have hthere : Blamed ((start source).after n).source ((start source).token n).offset
        cause stop := by
      rw [source_after h n, hsource]
      exact hblamed
    exact next_of_blamed (readAhead_after h n) hthere

end Scanner

end ByteLexer
