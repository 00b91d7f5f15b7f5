import ByteLexer.Proofs.Scan.Lexeme

/-!
# A cursor recognises the lexeme it stands before

`Cursor.recognise` finds runs by moving a cursor, a closing mark by a search
for its byte, and the character at hand in what has been read ahead.
`ReadAhead.recognise_eq` says that this comes to `lexeme`: the result is the
one that the bytes from the position on have by the rules, and the cursor
afterwards stands as many bytes further on as the lexeme has.

**What it takes as given.** The cursor has read ahead and stands before a byte. At the
end of the source there is no lexeme, and that case is left to the scanner
(`ByteLexer.Proofs.Scan.Run`).
-/

namespace ByteLexer

/-! ## Searching for a byte -/

theorem findIdx?_of_lt {source : ByteArray} {p : UInt8 → Bool} {start : Nat}
    (h : start < source.size) : source.findIdx? p start =
      if p source[start] then some start else source.findIdx? p (start + 1) := by
  rw [ByteArray.findIdx?, ByteArray.findIdx?.loop, dif_pos h]
  rfl

theorem findIdx?_of_not_mem {source : ByteArray} {byte : UInt8} {start : Nat}
    (h : byte ∉ bytesFrom source start) : source.findIdx? (· == byte) start = none := by
  unfold ByteArray.findIdx?
  fun_induction ByteArray.findIdx?.loop source (· == byte) start with
  | case1 start hlt hbyte =>
    rw [bytesFrom_of_lt hlt] at h
    exact absurd (List.mem_cons.2 (.inl (eq_of_beq hbyte).symm)) h
  | case2 start hlt hbyte ih =>
    rw [bytesFrom_of_lt hlt] at h
    exact ih fun hmem => h (List.mem_cons_of_mem _ hmem)
  | case3 => rfl

/-- A byte that is there is found behind the bytes that are not it. -/
theorem findIdx?_of_mem {source : ByteArray} {byte : UInt8} {start : Nat}
    (h : byte ∈ bytesFrom source start) : source.findIdx? (· == byte) start =
      some (start + ((bytesFrom source start).takeWhile (· != byte)).length) := by
  unfold ByteArray.findIdx?
  fun_induction ByteArray.findIdx?.loop source (· == byte) start with
  | case1 start hlt hbyte =>
    have hstop : ¬(source[start] != byte) = true := by
      rw [bne, hbyte]
      decide
    rw [bytesFrom_of_lt hlt, List.takeWhile_cons_of_neg (p := (· != byte)) hstop]
    rfl
  | case2 start hlt hbyte ih =>
    have hgo : (source[start] != byte) = true := by
      rw [bne, Bool.eq_false_iff.2 hbyte]
      rfl
    rw [bytesFrom_of_lt hlt] at h ⊢
    have hmem : byte ∈ bytesFrom source (start + 1) := by
      obtain rfl | hmem := List.mem_cons.1 h
      · exact absurd (beq_self_eq_true _) hbyte
      · exact hmem
    rw [ih hmem, List.takeWhile_cons_of_pos (p := (· != byte)) hgo, List.length_cons,
      Nat.add_right_comm, Nat.add_assoc]
  | case3 start hlt =>
    rw [bytesFrom_of_le (by omega)] at h
    cases h

/-! ## Recognition, rule by rule -/

namespace Cursor

variable {cursor : Cursor}

theorem ReadAhead.position_moveTo_add (h : cursor.ReadAhead) {n : Nat}
    (hn : n ≤ cursor.rest.length) :
    (cursor.moveTo (cursor.position + n)).position = cursor.position + n := by
  have hlength := h.position_add_length
  rw [position_moveTo]
  omega

/-- The token up to some bytes further on has these bytes as its text. -/
theorem ReadAhead.tokenTo_eq (h : cursor.ReadAhead) (kind : Kind) {n : Nat}
    (hn : n ≤ cursor.rest.length) :
    cursor.tokenTo (cursor.moveTo (cursor.position + n)) kind =
      ⟨kind, Utf8.text (cursor.rest.take n), cursor.position⟩ := by
  rw [tokenTo, h.position_moveTo_add hn, textBetween, extract_eq, Nat.add_sub_cancel_left]
  rfl

theorem ReadAhead.recogniseRun_eq (h : cursor.ReadAhead) (kind : Kind) {inClass : Char → Bool}
    (hclass : ∀ c, inClass c = true → c.val < 0x80) :
    cursor.recogniseRun kind inClass =
      (⟨kind, Utf8.text (cursor.rest.takeWhile (onBytes inClass)), cursor.position⟩,
        cursor.moveTo (cursor.position + (cursor.rest.takeWhile (onBytes inClass)).length)) := by
  have hprefix := List.takeWhile_prefix (l := cursor.rest) (onBytes inClass)
  rw [recogniseRun, h.skipWhile_eq hclass, h.tokenTo_eq kind hprefix.length_le,
    ← List.prefix_iff_eq_take.1 hprefix]

/-- A quoted string is recognised by the rule for quotation marks. The search
for a byte finds the first mark of the list, and what validation reports of the stretch
up to there is where the characters of the list end. A defect that is reported without a
length is one that the rule knows the length of. -/
theorem ReadAhead.recogniseQuote_eq (h : cursor.ReadAhead) {rest : List UInt8}
    (hrest : cursor.rest = CharClass.quoteByte :: rest) :
    cursor.recogniseQuote = ((Lexeme.quoted cursor.position rest).1,
      cursor.moveTo (cursor.position + (Lexeme.quoted cursor.position rest).2)) := by
  have hlength := h.position_add_length
  rw [hrest, List.length_cons] at hlength
  have hnext : cursor.next = cursor.position + 1 := (h.of_ascii hrest (by decide)).2
  have hafter : bytesFrom cursor.source cursor.next = rest := by
    rw [hnext]
    exact bytesFrom_add_one hrest
  unfold recogniseQuote Lexeme.quoted
  -- with a mark the stretch up to it is validated; without one the rest is taken unread
  by_cases hmem : CharClass.quoteByte ∈ rest
  · have hfound := findIdx?_of_mem (hafter.symm ▸ hmem)
    have hfront : cursor.rest.take (Lexeme.closed rest).length = Lexeme.closed rest := by
      rw [hrest]
      exact (List.prefix_iff_eq_take.1 (Lexeme.closed_prefix hmem)).symm
    have hle : (Lexeme.closed rest).length ≤ cursor.rest.length := by
      rw [hrest]
      exact (Lexeme.closed_prefix hmem).length_le
    have hclose : cursor.next + (rest.takeWhile (· != CharClass.quoteByte)).length + 1 =
        cursor.position + (Lexeme.closed rest).length := by
      rw [hnext, Lexeme.length_closed]
      omega
    have hbytes : cursor.source.extract cursor.position
        (cursor.position + (Lexeme.closed rest).length) = (Lexeme.closed rest).toByteArray := by
      rw [extract_eq, Nat.add_sub_cancel_left]
      exact congrArg List.toByteArray hfront
    rw [hafter] at hfound
    rw [hfound, if_pos hmem]
    dsimp only
    rw [hclose, h.position_moveTo_add hle, hbytes, Utf8.validate_eq]
    cases hleft : Utf8.undecoded (Lexeme.closed rest) with
    | nil => rfl
    | cons byte left =>
      -- the fallback for a defect without a length is the length of what is left
      have hfallback : (Lexeme.closed rest).length -
          ((Lexeme.closed rest).length - (byte :: left).length) = (byte :: left).length := by
        have hlengths := Utf8.length_undecoded_le (Lexeme.closed rest)
        rw [hleft] at hlengths
        omega
      dsimp only
      rw [List.size_toByteArray, hfallback, Utf8.getD_malformedLength (List.cons_ne_nil _ _)]
  · rw [findIdx?_of_not_mem (hafter.symm ▸ hmem), if_neg hmem]
    dsimp only
    rw [← hlength]

/-- Below `80` the character read is the byte, and the rules agree by class. -/
theorem ReadAhead.recogniseFrom_eq_of_lt (h : cursor.ReadAhead) {first : UInt8} {rest : List UInt8}
    (hrest : cursor.rest = first :: rest) (hascii : first < 0x80) :
    cursor.recogniseFrom (Char.ofNat first.toNat) =
      ((lexeme cursor.position first rest).1,
        cursor.moveTo (cursor.position + (lexeme cursor.position first rest).2)) := by
  have hadvance : cursor.advance = cursor.moveTo (cursor.position + 1) := by
    rw [advance, (h.of_ascii hrest hascii).2]
  have hclass : ∀ inClass : Char → Bool,
      inClass (Char.ofNat first.toNat) = onBytes inClass first := by
    intro inClass
    rw [onBytes, decide_eq_true hascii, Bool.true_and]
  unfold recogniseFrom lexeme
  rw [Kind.ofChar?_ofNat, hclass CharClass.isIdentifierStart, hclass CharClass.isDigit,
    ByteClass.onBytes_isIdentifierStart, ByteClass.onBytes_isDigit]
  cases Kind.ofByte? first with
  | some kind =>
    have hone : 1 ≤ cursor.rest.length := by simp [hrest]
    dsimp only
    rw [hadvance, h.tokenTo_eq kind hone, hrest, List.take_succ_cons, List.take_zero]
    rfl
  | none =>
    dsimp only
    by_cases hstart : ByteClass.isIdentifierStart first = true
    · have hpart : ByteClass.isIdentifierPart first = true := by
        rw [ByteClass.isIdentifierPart, hstart, Bool.true_or]
      rw [if_pos hstart, if_pos hstart,
        h.recogniseRun_eq .identifier fun _ => ByteClass.lt_of_isIdentifierPart,
        ByteClass.onBytes_isIdentifierPart, hrest, List.takeWhile_cons_of_pos hpart]
      rfl
    rw [if_neg hstart, if_neg hstart]
    by_cases hdigit : ByteClass.isDigit first = true
    · rw [if_pos hdigit, if_pos hdigit,
        h.recogniseRun_eq .number fun _ => ByteClass.lt_of_isDigit,
        ByteClass.onBytes_isDigit, hrest, List.takeWhile_cons_of_pos hdigit]
      rfl
    rw [if_neg hdigit, if_neg hdigit]
    by_cases hquote : first = CharClass.quoteByte
    · rw [if_pos ((ByteClass.eq_quoteMark_iff first).2 hquote), if_pos hquote]
      exact h.recogniseQuote_eq (hquote ▸ hrest)
    · have hdecode : Utf8.decode? (first :: rest) = some (Char.ofNat first.toNat) := by
        rw [Utf8.decode?_eq_some_iff, Utf8.encode_ofNat hascii]
        exact List.prefix_append [_] _
      have hsize : (Char.ofNat first.toNat).utf8Size = 1 := by
        rw [← String.length_utf8EncodeChar, Utf8.encode_ofNat hascii, List.length_singleton]
      rw [if_neg (mt (ByteClass.eq_quoteMark_iff first).1 hquote), if_neg hquote, hadvance,
        Lexeme.stray, hdecode]
      dsimp only
      rw [hsize]

/-- Above `7F` no token starts, whatever has been read there. -/
theorem ReadAhead.recognise_eq_of_not_lt (h : cursor.ReadAhead) {first : UInt8}
    {rest : List UInt8} (hrest : cursor.rest = first :: rest) (hascii : ¬first < 0x80) :
    cursor.recognise = ((lexeme cursor.position first rest).1,
      cursor.moveTo (cursor.position + (lexeme cursor.position first rest).2)) := by
  rw [lexeme_eq_stray (ByteClass.not_ascii first hascii), ← hrest, Lexeme.stray]
  cases hdecode : Utf8.decode? cursor.rest with
  | some c =>
    have hread := h.of_encode_prefix (Utf8.decode?_eq_some_iff.1 hdecode)
    have hc : ¬c.val < 0x80 :=
      h.not_lt_of_not_ascii hrest hascii (by rw [character?, hread.1])
    have hnothing := StartsNothing.of_not_lt hc
    rw [recognise, hread.1]
    dsimp only
    rw [recogniseFrom, hnothing.operator]
    dsimp only
    rw [if_neg (Bool.eq_false_iff.1 hnothing.identifier),
      if_neg (Bool.eq_false_iff.1 hnothing.number), if_neg hnothing.quote, advance, hread.2]
  | none =>
    have hne : cursor.rest ≠ [] := by
      rw [hrest]
      exact List.cons_ne_nil _ _
    have hread := h.of_not_begins hne (Utf8.decode?_eq_none_iff.1 hdecode)
    rw [recognise, hread.1]
    dsimp only
    rw [advance, hread.2, Nat.add_sub_cancel_left]

/-- **A cursor recognises the lexeme it stands before**, and moves over its bytes. What
the scanner finds by reading ahead, by searching and by validating is what the rules say
of the bytes that are left, whether they are valid or not. From here on scanning can be
spoken of as a matter of lists. -/
theorem ReadAhead.recognise_eq (h : cursor.ReadAhead) {first : UInt8} {rest : List UInt8}
    (hrest : cursor.rest = first :: rest) :
    cursor.recognise = ((lexeme cursor.position first rest).1,
      cursor.moveTo (cursor.position + (lexeme cursor.position first rest).2)) := by
  by_cases hascii : first < 0x80
  · rw [recognise, (h.of_ascii hrest hascii).1]
    exact h.recogniseFrom_eq_of_lt hrest hascii
  · exact h.recognise_eq_of_not_lt hrest hascii

end Cursor

end ByteLexer
