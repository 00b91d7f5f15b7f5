import ByteLexer.Proofs.Scan.Lexing

/-!
# Spellings

How a word of each kind is written, said of its bytes alone. `Spelling` knows
neither where a word ends nor what stands around it; that is the matter of
`Kind.continues`, the bytes that a word of a kind would go on with if they
stood behind it.

The two settle what a lexeme is. Where a spelling stands at the front of some
bytes, the lexeme is that word together with all bytes behind it that go on
with it (`lexeme_append`), and a lexeme is a word so spelled, with nothing
behind it that goes on with it, or an error (`lexeme_spelling`).

Which kinds go on with which is a table of three entries (`Kind.joins`,
`Spelling.continues_eq`): a letter or a digit goes on with an identifier, a
digit goes on with a number, and nothing else goes on with anything.

**What it does not establish.** A word may be spelled in this sense and still not be a
token where it stands, since the scanner takes the longest run. What is needed for that is
said with `Kind.continues`, and for whole sequences in `ByteLexer.Proofs.Scan.Layout`.
-/

namespace ByteLexer

/-- The bytes spell a word of a kind. -/
inductive Spelling : Kind → List UInt8 → Prop
  | identifier {first : UInt8} {more : List UInt8}
      (hfirst : ByteClass.isIdentifierStart first = true)
      (hmore : ∀ byte ∈ more, ByteClass.isIdentifierPart byte = true) :
      Spelling .identifier (first :: more)
  | number {first : UInt8} {more : List UInt8} (hfirst : ByteClass.isDigit first = true)
      (hmore : ∀ byte ∈ more, ByteClass.isDigit byte = true) : Spelling .number (first :: more)
  /-- The encoding of an operator's character, which is one byte. -/
  | operator {kind : Kind} {c : Char} {byte : UInt8} (hkind : kind.operatorChar? = some c)
      (hbyte : String.utf8EncodeChar c = [byte]) : Spelling kind [byte]
  /-- Valid bytes without a quotation mark, between two quotation marks. -/
  | quote {body : List UInt8} (hvalid : body.toByteArray.IsValidUTF8)
      (hbody : CharClass.quoteByte ∉ body) :
      Spelling .quote (CharClass.quoteByte :: (body ++ [CharClass.quoteByte]))

namespace Kind

/-- The bytes that a word of a kind goes on with. -/
def continues : Kind → UInt8 → Bool
  | .identifier => ByteClass.isIdentifierPart
  | .number => ByteClass.isDigit
  | _ => fun _ => false

/-- Whether a word of the first kind goes on with a word of the second. -/
def joins : Kind → Kind → Bool
  | .identifier, .identifier => true
  | .identifier, .number => true
  | .number, .number => true
  | _, _ => false

/-- An operator is looked up by the byte that spells it. -/
theorem ofByte?_eq_some_iff {byte : UInt8} {kind : Kind} : ofByte? byte = some kind ↔
    ∃ c, kind.operatorChar? = some c ∧ String.utf8EncodeChar c = [byte] := by
  constructor
  · intro h
    exact ⟨_, operatorChar?_of_ofByte? h, Utf8.encode_ofNat (ByteClass.lt_of_ofByte? h)⟩
  · rintro ⟨c, hkind, hbyte⟩
    have hfound := ofChar?_eq_some_iff.2 hkind
    obtain ⟨other, hascii, hother⟩ := Utf8.exists_encode_of_lt (ByteClass.lt_of_ofChar? hfound)
    obtain rfl : other = byte := List.singleton_inj.1 (hother.symm.trans hbyte)
    rw [← ofChar?_ofNat, ← Utf8.eq_ofNat_of_encode hbyte hascii]
    exact hfound

theorem continues_of_operatorChar? {kind : Kind} {c : Char} (h : kind.operatorChar? = some c) :
    kind.continues = fun _ => false := by
  cases kind
  all_goals first | rfl | cases h

theorem joins_of_operatorChar? {kind : Kind} {c : Char} (h : kind.operatorChar? = some c)
    (before : Kind) : before.joins kind = false := by
  cases kind
  all_goals first | cases h; done | cases before <;> rfl

theorem lt_of_continues {kind : Kind} {byte : UInt8} (h : kind.continues byte = true) :
    byte < 0x80 := by
  unfold continues at h
  split at h
  · exact ByteClass.lt_of_part byte h
  · exact ByteClass.lt_of_digit byte h
  · cases h

/-- A space goes on with nothing. -/
theorem not_continues_of_isSpace {kind : Kind} {byte : UInt8}
    (h : ByteClass.isSpace byte = true) : kind.continues byte = false := by
  have hclass : ∀ byte : UInt8, ByteClass.isSpace byte = true →
      ByteClass.isIdentifierPart byte = false ∧ ByteClass.isDigit byte = false :=
    ByteClass.forall_byte (by decide +kernel)
  unfold continues
  split
  · exact (hclass byte h).1
  · exact (hclass byte h).2
  · rfl

end Kind

/-! ## The first byte -/

namespace ByteClass

theorem ofByte?_of_start : ∀ byte : UInt8, isIdentifierStart byte = true →
    Kind.ofByte? byte = none ∧ isDigit byte = false ∧ isSpace byte = false :=
  forall_byte (by decide +kernel)

theorem ofByte?_of_digit : ∀ byte : UInt8, isDigit byte = true →
    Kind.ofByte? byte = none ∧ isIdentifierStart byte = false ∧ isSpace byte = false :=
  forall_byte (by decide +kernel)

theorem not_part_of_ofByte? : ∀ byte : UInt8, (Kind.ofByte? byte).isSome = true →
    isIdentifierPart byte = false ∧ isDigit byte = false ∧ isSpace byte = false :=
  forall_byte (by decide +kernel)

end ByteClass

namespace Spelling

variable {kind : Kind} {first : UInt8} {more word : List UInt8}

theorem ne_nil (h : Spelling kind word) : word ≠ [] := by
  cases h
  all_goals exact List.cons_ne_nil _ _

/-- No kind that is reserved has a spelling. -/
theorem not_isReserved (h : Spelling kind word) : kind.isReserved = false := by
  cases h with
  | identifier => rfl
  | number => rfl
  | operator hkind hbyte =>
    exact Kind.not_isReserved_of_ofByte? (Kind.ofByte?_eq_some_iff.2 ⟨_, hkind, hbyte⟩)
  | quote => rfl

/-- No word starts with a space. -/
theorem not_isSpace (h : Spelling kind (first :: more)) : ByteClass.isSpace first = false := by
  cases h with
  | identifier hfirst _ => exact (ByteClass.ofByte?_of_start first hfirst).2.2
  | number hfirst _ => exact (ByteClass.ofByte?_of_digit first hfirst).2.2
  | operator hkind hbyte =>
    have hfound := Kind.ofByte?_eq_some_iff.2 ⟨_, hkind, hbyte⟩
    exact (ByteClass.not_part_of_ofByte? first (Option.isSome_of_eq_some hfound)).2.2
  | quote => rfl

/-- Whether a word goes on with another shows in the first byte of that. -/
theorem continues_eq (h : Spelling kind (first :: more)) (before : Kind) :
    before.continues first = before.joins kind := by
  cases h with
  | identifier hfirst _ =>
    have hpart : ByteClass.isIdentifierPart first = true := Bool.or_eq_true_iff.2 (.inl hfirst)
    have hdigit := (ByteClass.ofByte?_of_start first hfirst).2.1
    cases before <;> simp only [Kind.continues, Kind.joins, hpart, hdigit]
  | number hfirst _ =>
    have hpart : ByteClass.isIdentifierPart first = true := Bool.or_eq_true_iff.2 (.inr hfirst)
    cases before <;> simp only [Kind.continues, Kind.joins, hpart, hfirst]
  | operator hkind hbyte =>
    have hfound := Kind.ofByte?_eq_some_iff.2 ⟨_, hkind, hbyte⟩
    obtain ⟨hpart, hdigit, -⟩ :=
      ByteClass.not_part_of_ofByte? first (Option.isSome_of_eq_some hfound)
    rw [Kind.joins_of_operatorChar? hkind]
    cases before <;> simp only [Kind.continues, hpart, hdigit]
  | quote => cases before <;> rfl

/-- A word that goes on with another goes on with all bytes of it. -/
theorem all_continues (h : Spelling kind word) {before : Kind} (hjoin : before.joins kind = true) :
    ∀ byte ∈ word, before.continues byte = true := by
  intro byte hbyte
  cases h with
  | identifier hfirst hmore =>
    have hpart : ByteClass.isIdentifierPart byte = true := by
      obtain rfl | hbyte := List.mem_cons.1 hbyte
      · exact Bool.or_eq_true_iff.2 (.inl hfirst)
      · exact hmore byte hbyte
    cases before
    all_goals first | exact hpart | cases hjoin
  | number hfirst hmore =>
    have hdigit : ByteClass.isDigit byte = true := by
      obtain rfl | hbyte := List.mem_cons.1 hbyte
      · exact hfirst
      · exact hmore byte hbyte
    cases before
    all_goals first | exact hdigit | exact Bool.or_eq_true_iff.2 (.inr hdigit) | cases hjoin
  | operator hkind _ =>
    rw [Kind.joins_of_operatorChar? hkind] at hjoin
    cases hjoin
  | quote =>
    cases before
    all_goals cases hjoin

end Spelling

/-! ## Validity of a word -/

/-- Bytes between two quotation marks are valid together with them when they are by themselves. -/
theorem Utf8.undecoded_quote {body : List UInt8} :
    undecoded (CharClass.quoteByte :: (body ++ [CharClass.quoteByte])) = [] ↔
      undecoded body = [] := by
  have hopen := undecoded_encode CharClass.quoteMark (body ++ [CharClass.quoteByte])
  rw [encode_quoteMark, List.singleton_append] at hopen
  rw [hopen, ← isValidUTF8_iff_undecoded, ← isValidUTF8_iff_undecoded, isValidUTF8_iff,
    isValidUTF8_iff]
  constructor
  · rintro ⟨cs, hcs⟩
    obtain rfl | ⟨before, c, rfl⟩ := List.eq_nil_or_concat cs
    · exact absurd hcs (List.append_ne_nil_of_right_ne_nil _ (List.cons_ne_nil _ _))
    · have hsplit : body ++ [CharClass.quoteByte] =
          encodeAll before ++ String.utf8EncodeChar c := by
        rw [hcs, List.concat_eq_append, encodeAll_concat]
      have hlast : CharClass.quoteByte ∈ String.utf8EncodeChar c := by
        have hne : String.utf8EncodeChar c ≠ [] := String.utf8EncodeChar_ne_nil
        have hgetLast := congrArg List.getLast? hsplit
        rw [List.getLast?_concat, List.getLast?_append, List.getLast?_eq_some_getLast hne,
          Option.some_or, Option.some.injEq] at hgetLast
        rw [hgetLast]
        exact List.getLast_mem hne
      rw [encode_of_mem hlast (by decide)] at hsplit
      exact ⟨before, List.append_cancel_right hsplit⟩
  · rintro ⟨cs, rfl⟩
    exact ⟨cs ++ [CharClass.quoteMark], by rw [encodeAll_concat, encode_quoteMark]⟩

theorem Spelling.valid {kind : Kind} {word : List UInt8} (h : Spelling kind word) :
    Utf8.undecoded word = [] := by
  cases h with
  | identifier hfirst hmore =>
    apply Utf8.undecoded_of_ascii
    intro byte hbyte
    obtain rfl | hbyte := List.mem_cons.1 hbyte
    · exact ByteClass.lt_of_start hfirst
    · exact ByteClass.lt_of_part byte (hmore byte hbyte)
  | number hfirst hmore =>
    apply Utf8.undecoded_of_ascii
    intro byte hbyte
    obtain rfl | hbyte := List.mem_cons.1 hbyte
    · exact ByteClass.lt_of_digit _ hfirst
    · exact ByteClass.lt_of_digit byte (hmore byte hbyte)
  | @operator kind c byte _ hbyte =>
    have hencode : [byte] = Utf8.encodeAll [c] := by
      rw [Utf8.encodeAll_cons, Utf8.encodeAll_nil, List.append_nil, hbyte]
    exact Utf8.isValidUTF8_iff_undecoded.1 (Utf8.isValidUTF8_iff.2 ⟨_, hencode⟩)
  | quote hvalid _ => exact Utf8.undecoded_quote.2 (Utf8.isValidUTF8_iff_undecoded.1 hvalid)

/-! ## Lexemes -/

/-- Nothing is taken where the first byte is not in the class. -/
theorem takeWhile_eq_nil_iff {bytes : List UInt8} {inClass : UInt8 → Bool} :
    bytes.takeWhile inClass = [] ↔ bytes.head?.any inClass = false := by
  cases bytes with
  | nil => simp
  | cons first rest => simp [List.takeWhile_cons]

theorem takeWhile_eq_nil_of_none {inClass : UInt8 → Bool} (h : inClass = fun _ => false)
    (bytes : List UInt8) : bytes.takeWhile inClass = [] := by
  rw [takeWhile_eq_nil_iff, h]
  cases bytes.head? <;> rfl

section Rules

variable {first : UInt8} (start : Nat) (rest : List UInt8)

theorem lexeme_of_ofByte? {kind : Kind} (h : Kind.ofByte? first = some kind) :
    lexeme start first rest = Lexeme.spelled start kind [first] := by
  rw [lexeme, h]

theorem lexeme_of_start (h : ByteClass.isIdentifierStart first = true) :
    lexeme start first rest =
      Lexeme.spelled start .identifier (first :: rest.takeWhile ByteClass.isIdentifierPart) := by
  rw [lexeme, (ByteClass.ofByte?_of_start first h).1]
  exact if_pos h

theorem lexeme_of_digit (h : ByteClass.isDigit first = true) :
    lexeme start first rest =
      Lexeme.spelled start .number (first :: rest.takeWhile ByteClass.isDigit) := by
  obtain ⟨hkind, hstart, -⟩ := ByteClass.ofByte?_of_digit first h
  rw [lexeme, hkind]
  dsimp only
  rw [if_neg (Bool.eq_false_iff.1 hstart), if_pos h]

end Rules

/-- The string that is opened before a body and a quotation mark is these. -/
theorem Lexeme.closed_append {body : List UInt8} (h : CharClass.quoteByte ∉ body)
    (tail : List UInt8) : closed (body ++ CharClass.quoteByte :: tail) =
      CharClass.quoteByte :: (body ++ [CharClass.quoteByte]) := by
  have hbody : ∀ byte ∈ body, (byte != CharClass.quoteByte) = true := by
    intro byte hbyte
    exact bne_iff_ne.2 fun heq => h (heq ▸ hbyte)
  rw [closed, List.takeWhile_append_of_pos hbody, List.takeWhile_cons_of_neg (by decide),
    List.append_nil]
  rfl

/-- **The lexeme where a spelling stands** is the word with all bytes behind
it that go on with it. So a scanner finds at least the word that was written, and finds
more only where an identifier or a number meets what could be a part of it. -/
theorem lexeme_append (start : Nat) {kind : Kind} {first : UInt8} {more : List UInt8}
    (h : Spelling kind (first :: more)) (tail : List UInt8) :
    lexeme start first (more ++ tail) =
      Lexeme.spelled start kind (first :: (more ++ tail.takeWhile kind.continues)) := by
  cases h with
  | identifier hfirst hmore =>
    rw [lexeme_of_start start _ hfirst, List.takeWhile_append_of_pos hmore]
    rfl
  | number hfirst hmore =>
    rw [lexeme_of_digit start _ hfirst, List.takeWhile_append_of_pos hmore]
    rfl
  | operator hkind hbyte =>
    rw [lexeme_of_ofByte? start _ (Kind.ofByte?_eq_some_iff.2 ⟨_, hkind, hbyte⟩),
      takeWhile_eq_nil_of_none (Kind.continues_of_operatorChar? hkind)]
    rfl
  | @quote body hvalid hbody =>
    have hclosed := Lexeme.closed_append hbody tail
    have hmem : CharClass.quoteByte ∈ body ++ CharClass.quoteByte :: tail :=
      List.mem_append_right _ List.mem_cons_self
    have hstop : tail.takeWhile (Kind.continues .quote) = [] :=
      takeWhile_eq_nil_of_none rfl tail
    rw [List.append_assoc, List.singleton_append, lexeme_quoteByte, Lexeme.quoted, if_pos hmem,
      hclosed, Utf8.undecoded_quote.2 (Utf8.isValidUTF8_iff_undecoded.1 hvalid), hstop,
      List.append_nil]

theorem not_of_dropWhile_eq_cons {bytes rest : List UInt8} {inClass : UInt8 → Bool} {first : UInt8}
    (h : bytes.dropWhile inClass = first :: rest) : inClass first = false := by
  have hhead := List.head?_dropWhile_not inClass bytes
  rw [h] at hhead
  exact hhead

theorem takeWhile_dropWhile (inClass : UInt8 → Bool) (bytes : List UInt8) :
    (bytes.dropWhile inClass).takeWhile inClass = [] := by
  rw [takeWhile_eq_nil_iff]
  cases hrest : bytes.dropWhile inClass with
  | nil => rfl
  | cons first rest => exact not_of_dropWhile_eq_cons hrest

/-- What a quotation mark opens is a spelled string, or an error. -/
theorem Lexeme.quoted_spelling (start : Nat) (rest : List UInt8) :
    (∃ more tail, Spelling .quote (CharClass.quoteByte :: more) ∧ rest = more ++ tail ∧
      quoted start rest = spelled start .quote (CharClass.quoteByte :: more)) ∨
    ∃ cause size, 0 < size ∧ size ≤ rest.length + 1 ∧ quoted start rest = (.error cause, size) := by
  rcases quoted_cases start rest with ⟨word, hword, heq⟩ | herror
  · left
    have hmem : CharClass.quoteByte ∈ rest := by
      by_contra hmem
      rw [quoted, if_neg hmem] at heq
      cases heq
    have hbody : CharClass.quoteByte ∉ rest.takeWhile (· != CharClass.quoteByte) := by
      intro hin
      exact absurd (List.all_eq_true.1 List.all_takeWhile _ hin) (by decide)
    have hsplit : rest = (rest.takeWhile (· != CharClass.quoteByte) ++ [CharClass.quoteByte]) ++
        rest.drop ((rest.takeWhile (· != CharClass.quoteByte)).length + 1) := by
      rw [← take_of_mem hmem, List.take_append_drop]
    rw [quoted, if_pos hmem] at heq ⊢
    cases hleft : Utf8.undecoded (closed rest) with
    | nil =>
      have hvalid := Utf8.isValidUTF8_iff_undecoded.2 (Utf8.undecoded_quote.1 hleft)
      exact ⟨_, _, .quote hvalid hbody, hsplit, rfl⟩
    | cons byte left =>
      rw [hleft] at heq
      cases heq
  · exact .inr herror

/-- **A lexeme is a spelled word** that nothing behind it goes on with, or an error. This is
the converse of `lexeme_append`: there is no way to a token but by a spelling, so
whatever is known of spellings is known of tokens. -/
theorem lexeme_spelling (start : Nat) (first : UInt8) (rest : List UInt8) :
    (∃ kind more tail, Spelling kind (first :: more) ∧ rest = more ++ tail ∧
      tail.takeWhile kind.continues = [] ∧
      lexeme start first rest = Lexeme.spelled start kind (first :: more)) ∨
    ∃ cause size, 0 < size ∧ size ≤ rest.length + 1 ∧
      lexeme start first rest = (.error cause, size) := by
  have hrun : ∀ inClass : UInt8 → Bool, rest = rest.takeWhile inClass ++ rest.dropWhile inClass ∧
      (rest.dropWhile inClass).takeWhile inClass = [] := by
    intro inClass
    exact ⟨List.takeWhile_append_dropWhile.symm, takeWhile_dropWhile inClass rest⟩
  cases hkind : Kind.ofByte? first with
  | some kind =>
    obtain ⟨c, hc, hbyte⟩ := Kind.ofByte?_eq_some_iff.1 hkind
    have hstop := takeWhile_eq_nil_of_none (Kind.continues_of_operatorChar? hc) rest
    exact .inl ⟨kind, [], rest, .operator hc hbyte, rfl, hstop, lexeme_of_ofByte? start rest hkind⟩
  | none =>
    by_cases hstart : ByteClass.isIdentifierStart first = true
    · obtain ⟨hsplit, hstop⟩ := hrun ByteClass.isIdentifierPart
      exact .inl ⟨_, _, _, .identifier hstart fun _ => List.all_eq_true.1 List.all_takeWhile _,
        hsplit, hstop, lexeme_of_start start rest hstart⟩
    by_cases hdigit : ByteClass.isDigit first = true
    · obtain ⟨hsplit, hstop⟩ := hrun ByteClass.isDigit
      exact .inl ⟨_, _, _, .number hdigit fun _ => List.all_eq_true.1 List.all_takeWhile _,
        hsplit, hstop, lexeme_of_digit start rest hdigit⟩
    by_cases hquote : first = CharClass.quoteByte
    · subst hquote
      rw [lexeme_quoteByte]
      obtain ⟨more, tail, hword, hsplit, heq⟩ | herror := Lexeme.quoted_spelling start rest
      · have hstop : tail.takeWhile (Kind.continues .quote) = [] :=
          takeWhile_eq_nil_of_none rfl tail
        exact .inl ⟨.quote, more, tail, hword, hsplit, hstop, heq⟩
      · exact .inr herror
    · rw [lexeme_eq_stray ⟨hkind, Bool.eq_false_iff.2 hstart, Bool.eq_false_iff.2 hdigit, hquote⟩]
      exact .inr (Lexeme.stray_cases start (List.cons_ne_nil _ _))

/-! ## Tokens -/

section Tokens

variable (offset : Nat) {spaces : List UInt8}

theorem lexFrom_append_spaces (h : ∀ byte ∈ spaces, ByteClass.isSpace byte = true)
    (bytes : List UInt8) :
    lexFrom offset (spaces ++ bytes) = lexFrom (offset + spaces.length) bytes := by
  have hstart : offset + ((spaces ++ bytes).takeWhile ByteClass.isSpace).length =
      offset + spaces.length + (bytes.takeWhile ByteClass.isSpace).length := by
    rw [List.takeWhile_append_of_pos h, List.length_append, Nat.add_assoc]
  have hdrop : (spaces ++ bytes).dropWhile ByteClass.isSpace =
      bytes.dropWhile ByteClass.isSpace := List.dropWhile_append_of_pos h
  cases hrest : bytes.dropWhile ByteClass.isSpace with
  | nil =>
    rw [lexFrom_of_nil hrest, lexFrom_of_nil (hdrop.trans hrest), List.length_append, Nat.add_assoc]
  | cons first rest =>
    rw [lexFrom_of_cons hrest rfl, lexFrom_of_cons (hdrop.trans hrest) hstart]

theorem lexFrom_spaces (h : ∀ byte ∈ spaces, ByteClass.isSpace byte = true) :
    lexFrom offset spaces = [.endOfInput (offset + spaces.length)] := by
  have happend := lexFrom_append_spaces offset h []
  rw [List.append_nil, lexFrom_of_nil List.dropWhile_nil] at happend
  exact happend

/-- Where a spelling stands, its word is the first token, with all bytes
behind it that go on with it. -/
theorem lexFrom_append_word {kind : Kind} {word : List UInt8} (h : Spelling kind word)
    (tail : List UInt8) :
    lexFrom offset (word ++ tail) =
      ⟨kind, Utf8.text (word ++ tail.takeWhile kind.continues), offset⟩ ::
        lexFrom (offset + (word ++ tail.takeWhile kind.continues).length)
          (tail.dropWhile kind.continues) := by
  obtain ⟨first, more, rfl⟩ := List.exists_cons_of_ne_nil h.ne_nil
  have hspace : ¬ByteClass.isSpace first = true := Bool.eq_false_iff.1 h.not_isSpace
  have hrest : (first :: more ++ tail).dropWhile ByteClass.isSpace = first :: (more ++ tail) :=
    List.dropWhile_cons_of_neg hspace
  have hstart : offset + ((first :: more ++ tail).takeWhile ByteClass.isSpace).length = offset := by
    rw [List.cons_append, List.takeWhile_cons_of_neg hspace]
    rfl
  have hleft : (first :: (more ++ tail)).drop
      (first :: (more ++ tail.takeWhile kind.continues)).length =
        tail.dropWhile kind.continues := by
    rw [List.length_cons, List.drop_succ_cons, List.length_append, ← List.drop_drop, List.drop_left,
      drop_length_takeWhile]
  rw [lexFrom_of_cons hrest hstart, lexeme_append offset h tail]
  exact congrArg _ (congrArg _ hleft)

/-- Where nothing behind it goes on with it, the word is the first token. -/
theorem lexFrom_append_of_stop {kind : Kind} {word : List UInt8} (h : Spelling kind word)
    {tail : List UInt8} (hstop : tail.takeWhile kind.continues = []) :
    lexFrom offset (word ++ tail) =
      ⟨kind, Utf8.text word, offset⟩ :: lexFrom (offset + word.length) tail := by
  have hdrop := List.takeWhile_append_dropWhile (p := kind.continues) (l := tail)
  rw [hstop, List.nil_append] at hdrop
  rw [lexFrom_append_word offset h, hstop, List.append_nil, hdrop]

end Tokens

/-- What a call takes behind the spaces is a spelled word that nothing behind
it goes on with, or some bytes for an error. -/
theorem Scanner.next_spelling {scanner : Scanner} (h : scanner.cursor.ReadAhead)
    (hrest : scanner.rest.dropWhile ByteClass.isSpace ≠ []) :
    (∃ kind word, Spelling kind word ∧
      scanner.rest.dropWhile ByteClass.isSpace = word ++ scanner.next.2.rest ∧
      scanner.next.2.rest.takeWhile kind.continues = [] ∧
      scanner.next.1 = ⟨kind, Utf8.text word, scanner.startOffset⟩ ∧
      scanner.next.2.offset = scanner.startOffset + word.length) ∨
    ∃ bad, bad ≠ [] ∧ scanner.rest.dropWhile ByteClass.isSpace = bad ++ scanner.next.2.rest ∧
      scanner.next.1 = .error scanner.startOffset ∧
      scanner.next.2.offset = scanner.startOffset + bad.length := by
  obtain ⟨first, rest, hrest⟩ := List.exists_cons_of_ne_nil hrest
  rw [offset_next_of_cons h hrest, rest_next_of_cons h hrest, next_eq_of_cons h hrest, hrest]
  dsimp only
  rcases lexeme_spelling scanner.startOffset first rest with
    ⟨kind, more, tail, hword, rfl, hstop, heq⟩ | ⟨cause, size, hpos, hle, heq⟩
  · left
    have hleft : (first :: (more ++ tail)).drop (first :: more).length = tail := List.drop_left
    rw [heq, Lexeme.spelled, hleft]
    exact ⟨kind, first :: more, hword, rfl, hstop, rfl, rfl⟩
  · right
    have hsize : ((first :: rest).take size).length = size := List.length_take_of_le hle
    rw [heq]
    refine ⟨(first :: rest).take size, ?_, (List.take_append_drop _ _).symm, rfl, ?_⟩
    · exact List.ne_nil_of_length_pos (by omega)
    · rw [hsize]

end ByteLexer
