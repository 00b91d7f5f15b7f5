import Mathlib.Tactic.MkIffOfInductiveProp
import ByteLexer.Proofs.Scan.ReadAhead
import ByteLexer.Scan.Recognition

/-!
# The lexeme at the front of some bytes

`lexeme` says what stands at the front of a list of bytes, and over how many
of them: a token, or the cause of an error. It knows nothing of cursors. The
rules are those of the grammar, with runs as `takeWhile`, a closing mark as
membership in the list, and malformed bytes as what is left undecoded.

`lexeme_cases` says all that a lexeme can be: a valid word at the front of
the bytes, or a cause with some of the bytes, and never nothing at all.

**What it takes as given.** An operator is what the table of the scanner says it is
(`Kind.ofByte?`), and a character what the standard library decodes. Where a character
or a malformed front ends is said by encodings alone, and never by the scanner's own
reader. There are no rules about what may follow what: a sequence of lexemes is
anything at all.
-/

namespace ByteLexer

/-! ## Classes of bytes -/

namespace ByteClass

/-- Space, tab, line feed and carriage return. -/
def isSpace (byte : UInt8) : Bool :=
  byte = 0x20 || byte = 0x09 || byte = 0x0A || byte = 0x0D

/-- `0` to `9`. -/
def isDigit (byte : UInt8) : Bool :=
  0x30 ≤ byte && byte ≤ 0x39

/-- `A` to `Z`, `a` to `z`, and the underscore. -/
def isIdentifierStart (byte : UInt8) : Bool :=
  (0x41 ≤ byte && byte ≤ 0x5A) || (0x61 ≤ byte && byte ≤ 0x7A) || byte = 0x5F

/-- What an identifier starts with, or a digit. -/
def isIdentifierPart (byte : UInt8) : Bool :=
  isIdentifierStart byte || isDigit byte

theorem forall_byte {P : UInt8 → Prop} (h : ∀ i : Fin 256, P (UInt8.ofFin i)) (byte : UInt8) :
    P byte :=
  h byte.toFin

theorem onBytes_isSpace : onBytes CharClass.isSpace = isSpace :=
  funext (forall_byte (by decide +kernel))

theorem onBytes_isDigit : onBytes CharClass.isDigit = isDigit :=
  funext (forall_byte (by decide +kernel))

theorem onBytes_isIdentifierStart : onBytes CharClass.isIdentifierStart = isIdentifierStart :=
  funext (forall_byte (by decide +kernel))

theorem onBytes_isIdentifierPart : onBytes CharClass.isIdentifierPart = isIdentifierPart :=
  funext (forall_byte (by decide +kernel))

/-- The classes of the scanner hold ASCII characters only. -/
theorem lt_of_isIdentifierPart {c : Char} (h : CharClass.isIdentifierPart c = true) :
    c.val < 0x80 := by
  simp only [CharClass.isIdentifierPart, CharClass.isIdentifierStart, CharClass.isDigit,
    Bool.or_eq_true, Bool.and_eq_true, decide_eq_true_eq] at h
  obtain ((⟨-, h⟩ | ⟨-, h⟩) | rfl) | ⟨-, h⟩ := h
  · exact Nat.lt_of_le_of_lt h (by decide)
  · exact Nat.lt_of_le_of_lt h (by decide)
  · decide
  · exact Nat.lt_of_le_of_lt h (by decide)

theorem lt_of_isDigit {c : Char} (h : CharClass.isDigit c = true) : c.val < 0x80 :=
  lt_of_isIdentifierPart (by rw [CharClass.isIdentifierPart, h, Bool.or_true])

theorem lt_of_isSpace {c : Char} (h : CharClass.isSpace c = true) : c.val < 0x80 := by
  simp only [CharClass.isSpace, Bool.or_eq_true, decide_eq_true_eq] at h
  obtain ((rfl | rfl) | rfl) | rfl := h
  all_goals decide

theorem lt_of_ofChar? {c : Char} {kind : Kind} (h : Kind.ofChar? c = some kind) : c.val < 0x80 := by
  have h := Kind.ofChar?_eq_some_iff.1 h
  cases kind
  all_goals cases h
  all_goals decide

/-- No rule but the last is for a byte above `7F`. -/
theorem not_ascii : ∀ byte : UInt8, ¬byte < 0x80 →
    Kind.ofByte? byte = none ∧ isIdentifierStart byte = false ∧ isDigit byte = false ∧
      byte ≠ CharClass.quoteByte :=
  forall_byte (by decide +kernel)

theorem lt_of_ofByte? {byte : UInt8} {kind : Kind} (h : Kind.ofByte? byte = some kind) :
    byte < 0x80 := by
  by_contra hascii
  rw [(not_ascii byte hascii).1] at h
  cases h

theorem lt_of_start {byte : UInt8} (h : isIdentifierStart byte = true) : byte < 0x80 := by
  by_contra hascii
  rw [(not_ascii byte hascii).2.1] at h
  cases h

theorem lt_of_digit (byte : UInt8) (h : isDigit byte = true) : byte < 0x80 := by
  by_contra hascii
  rw [(not_ascii byte hascii).2.2.1] at h
  cases h

theorem lt_of_part (byte : UInt8) (h : isIdentifierPart byte = true) : byte < 0x80 := by
  obtain h | h := Bool.or_eq_true_iff.1 h
  · exact lt_of_start h
  · exact lt_of_digit byte h

theorem lt_of_space (byte : UInt8) (h : isSpace byte = true) : byte < 0x80 := by
  rw [← onBytes_isSpace, onBytes, Bool.and_eq_true, decide_eq_true_eq] at h
  exact h.1

theorem eq_quoteMark_iff : ∀ byte : UInt8,
    Char.ofNat byte.toNat = CharClass.quoteMark ↔ byte = CharClass.quoteByte :=
  forall_byte (by decide +kernel)

end ByteClass

theorem encode_quoteMark : String.utf8EncodeChar CharClass.quoteMark = [CharClass.quoteByte] := by
  decide

/-- A character that a byte holds is looked up as that byte. -/
theorem Kind.ofChar?_ofNat (byte : UInt8) :
    Kind.ofChar? (Char.ofNat byte.toNat) = Kind.ofByte? byte := by
  have hlt := byte.toNat_lt
  have hcode : (Char.ofNat byte.toNat).toNat = byte.toNat := Utf8.toNat_val_ofNat (.inl (by omega))
  rw [Kind.ofChar?, hcode, if_pos hlt, UInt8.ofNat_toNat]

theorem Kind.not_isReserved_of_ofByte? {byte : UInt8} {kind : Kind}
    (h : Kind.ofByte? byte = some kind) : kind.isReserved = false := by
  have h := Kind.operatorChar?_of_ofByte? h
  cases kind
  all_goals first | rfl | cases h

/-- No token starts with this character, and it is no space. -/
@[mk_iff]
structure StartsNothing (c : Char) : Prop where
  space : CharClass.isSpace c = false
  operator : Kind.ofChar? c = none
  identifier : CharClass.isIdentifierStart c = false
  number : CharClass.isDigit c = false
  quote : c ≠ CharClass.quoteMark

/-- Every rule but the last is for ASCII characters. -/
theorem StartsNothing.of_not_lt {c : Char} (h : ¬c.val < 0x80) : StartsNothing c := by
  have hclass : ∀ inClass : Char → Bool, (∀ c, inClass c = true → c.val < 0x80) →
      inClass c = false := by
    intro inClass hascii
    apply Bool.eq_false_iff.2
    intro hin
    exact h (hascii c hin)
  have hpart := hclass CharClass.isIdentifierPart fun _ => ByteClass.lt_of_isIdentifierPart
  have hspace := hclass CharClass.isSpace fun _ => ByteClass.lt_of_isSpace
  obtain ⟨hstart, hdigit⟩ := Bool.or_eq_false_iff.1 hpart
  refine ⟨hspace, ?_, hstart, hdigit, ?_⟩
  · apply Option.eq_none_iff_forall_ne_some.2
    intro kind hkind
    exact h (ByteClass.lt_of_ofChar? hkind)
  · intro hquote
    apply h
    rw [hquote]
    decide

/-- Whether a character starts something shows in the first byte of its encoding.
The scanner asks this of a character that it has read, and the rules ask it of a byte;
for a byte above `7F` both answers are that nothing starts there. -/
theorem startsNothing_iff_first {c : Char} {first : UInt8} {rest : List UInt8}
    (hencode : String.utf8EncodeChar c = first :: rest) : StartsNothing c ↔
      ByteClass.isSpace first = false ∧ Kind.ofByte? first = none ∧
        ByteClass.isIdentifierStart first = false ∧ ByteClass.isDigit first = false ∧
          first ≠ CharClass.quoteByte := by
  by_cases hascii : first < 0x80
  · have hclass : ∀ inClass : Char → Bool, onBytes inClass first = inClass c := by
      intro inClass
      rw [onBytes, decide_eq_true hascii, Bool.true_and, ← Utf8.eq_ofNat_of_encode hencode hascii]
    rw [← ByteClass.onBytes_isSpace, ← ByteClass.onBytes_isIdentifierStart,
      ← ByteClass.onBytes_isDigit, hclass, hclass, hclass, ← Kind.ofChar?_ofNat,
      ← Utf8.eq_ofNat_of_encode hencode hascii, ne_eq, ← ByteClass.eq_quoteMark_iff,
      ← Utf8.eq_ofNat_of_encode hencode hascii]
    exact startsNothing_iff c
  · have hc : ¬c.val < 0x80 := by
      intro hlt
      obtain ⟨byte, hbyte, hone⟩ := Utf8.exists_encode_of_lt hlt
      rw [hencode] at hone
      exact hascii ((List.cons.inj hone).1 ▸ hbyte)
    have hspace : ByteClass.isSpace first = false := by
      rw [← ByteClass.onBytes_isSpace, onBytes, decide_eq_false hascii, Bool.false_and]
    constructor
    · intro _
      exact ⟨hspace, ByteClass.not_ascii first hascii⟩
    · intro _
      exact .of_not_lt hc

/-! ## The first place of a byte -/

/-- A list up to and including the first of some byte. -/
theorem take_of_mem {bytes : List UInt8} {byte : UInt8} (h : byte ∈ bytes) :
    bytes.take ((bytes.takeWhile (· != byte)).length + 1) =
      bytes.takeWhile (· != byte) ++ [byte] := by
  induction bytes with
  | nil => cases h
  | cons first rest ih =>
    by_cases hfirst : first = byte
    · simp [hfirst]
    · have hmem : byte ∈ rest := by
        obtain rfl | hmem := List.mem_cons.1 h
        · exact absurd rfl hfirst
        · exact hmem
      simp [hfirst, ih hmem]

/-- Behind the bytes that are not it stands the byte. -/
theorem getElem?_length_takeWhile {bytes : List UInt8} {byte : UInt8} (h : byte ∈ bytes) :
    bytes[(bytes.takeWhile (· != byte)).length]? = some byte := by
  rw [← List.getElem?_take_of_lt (Nat.lt_succ_self _), take_of_mem h, List.getElem?_concat_length]

/-- Before that it stands nowhere. -/
theorem getElem?_ne_of_lt_takeWhile {bytes : List UInt8} {byte : UInt8} {i : Nat}
    (h : i < (bytes.takeWhile (· != byte)).length) : bytes[i]? ≠ some byte := by
  obtain ⟨more, hmore⟩ := List.takeWhile_prefix (l := bytes) (· != byte)
  intro hi
  rw [← hmore, List.getElem?_append_left h] at hi
  have hne := List.all_eq_true.1 List.all_takeWhile byte (List.mem_of_getElem? hi)
  exact absurd hne (by simp)

/-- The first place of a byte is known by these two. -/
theorem length_takeWhile_eq {bytes : List UInt8} {byte : UInt8} {n : Nat}
    (hbyte : bytes[n]? = some byte) (hfirst : ∀ i < n, bytes[i]? ≠ some byte) :
    (bytes.takeWhile (· != byte)).length = n := by
  have hmem := List.mem_of_getElem? hbyte
  rcases Nat.lt_trichotomy (bytes.takeWhile (· != byte)).length n with hlt | heq | hgt
  · exact absurd (getElem?_length_takeWhile hmem) (hfirst _ hlt)
  · exact heq
  · exact absurd hbyte (getElem?_ne_of_lt_takeWhile hgt)

/-! ## The rules -/

namespace Lexeme

/-- The bytes of a word make a token of this kind. -/
def spelled (start : Nat) (kind : Kind) (word : List UInt8) : Except Cause Token × Nat :=
  (.ok ⟨kind, Utf8.text word, start⟩, word.length)

/-- The bytes of the string that is opened before some bytes: the mark, all
up to the next mark, and that one. -/
def closed (rest : List UInt8) : List UInt8 :=
  CharClass.quoteByte :: rest.takeWhile (· != CharClass.quoteByte) ++ [CharClass.quoteByte]

/-- Behind a quotation mark: all through the next one is a token if it is
valid, and all the rest is an error if there is none. -/
def quoted (start : Nat) (rest : List UInt8) : Except Cause Token × Nat :=
  if CharClass.quoteByte ∈ rest then
    match Utf8.undecoded (closed rest) with
    | [] => spelled start .quote (closed rest)
    | left =>
      (.error (.malformedBytes (start + ((closed rest).length - left.length))
        (Utf8.malformedLength left)), (closed rest).length)
  else (.error (.unclosedQuote start), rest.length + 1)

/-- Where no token starts: one character, or one malformed front, is an error. -/
def stray (start : Nat) (bytes : List UInt8) : Except Cause Token × Nat :=
  match Utf8.decode? bytes with
  | some c => (.error (.strayCharacter c start), c.utf8Size)
  | none =>
    (.error (.malformedBytes start (Utf8.malformedLength bytes)), Utf8.malformedLength bytes)

end Lexeme

/-- What stands at the front of some bytes, the first of them `first`, and
over how many: a token, or the cause of an error. `start` is their offset. The first
byte alone says which rule it is, so the order in which they are tried does not matter;
how far the lexeme goes is for the rule to say. -/
def lexeme (start : Nat) (first : UInt8) (rest : List UInt8) : Except Cause Token × Nat :=
  match Kind.ofByte? first with
  | some kind => Lexeme.spelled start kind [first]
  | none =>
    if ByteClass.isIdentifierStart first then
      Lexeme.spelled start .identifier (first :: rest.takeWhile ByteClass.isIdentifierPart)
    else if ByteClass.isDigit first then
      Lexeme.spelled start .number (first :: rest.takeWhile ByteClass.isDigit)
    else if first = CharClass.quoteByte then Lexeme.quoted start rest
    else Lexeme.stray start (first :: rest)

theorem lexeme_quoteByte (start : Nat) (rest : List UInt8) :
    lexeme start CharClass.quoteByte rest = Lexeme.quoted start rest :=
  rfl

theorem lexeme_eq_stray {start : Nat} {first : UInt8} {rest : List UInt8}
    (h : Kind.ofByte? first = none ∧ ByteClass.isIdentifierStart first = false ∧
      ByteClass.isDigit first = false ∧ first ≠ CharClass.quoteByte) :
    lexeme start first rest = Lexeme.stray start (first :: rest) := by
  obtain ⟨hkind, hstart, hdigit, hquote⟩ := h
  unfold lexeme
  rw [hkind]
  dsimp only
  rw [if_neg (Bool.eq_false_iff.1 hstart), if_neg (Bool.eq_false_iff.1 hdigit), if_neg hquote]

/-! ## What a lexeme can be -/

namespace Lexeme

/-- A word stands at the front of the bytes, is valid, and has a byte at least. -/
structure IsWord (bytes word : List UInt8) : Prop where
  isPrefix : word <+: bytes
  ne_nil : word ≠ []
  valid : Utf8.undecoded word = []

theorem IsWord.toByteArray_text {bytes word : List UInt8} (h : IsWord bytes word) :
    (Utf8.text word).toByteArray = word.toByteArray :=
  Utf8.toByteArray_text h.valid

theorem IsWord.utf8ByteSize_text {bytes word : List UInt8} (h : IsWord bytes word) :
    (Utf8.text word).utf8ByteSize = word.length := by
  show (Utf8.text word).toByteArray.size = word.length
  rw [h.toByteArray_text, List.size_toByteArray]

theorem IsWord.text_ne_empty {bytes word : List UInt8} (h : IsWord bytes word) :
    Utf8.text word ≠ "" := by
  intro hempty
  have hsize := h.utf8ByteSize_text
  rw [hempty] at hsize
  exact h.ne_nil (List.length_eq_zero_iff.1 hsize.symm)

theorem IsWord.of_run {first : UInt8} {rest : List UInt8} {inClass : UInt8 → Bool}
    (hascii : ∀ byte, inClass byte = true → byte < 0x80) (hfirst : first < 0x80) :
    IsWord (first :: rest) (first :: rest.takeWhile inClass) where
  isPrefix := List.prefix_cons_inj _ |>.2 (List.takeWhile_prefix _)
  ne_nil := List.cons_ne_nil _ _
  valid := by
    apply Utf8.undecoded_of_ascii
    intro byte hbyte
    obtain rfl | hbyte := List.mem_cons.1 hbyte
    · exact hfirst
    · exact hascii byte (List.all_eq_true.1 List.all_takeWhile byte hbyte)

end Lexeme

theorem Lexeme.length_closed (rest : List UInt8) :
    (closed rest).length = (rest.takeWhile (· != CharClass.quoteByte)).length + 2 := by
  rw [closed, List.length_append, List.length_cons, List.length_singleton]

/-- Where the next mark is there, the string is a front of the bytes. -/
theorem Lexeme.closed_prefix {rest : List UInt8} (h : CharClass.quoteByte ∈ rest) :
    closed rest <+: CharClass.quoteByte :: rest := by
  rw [closed, List.cons_append, List.prefix_cons_inj, ← take_of_mem h]
  exact List.take_prefix _ _

theorem Lexeme.quoted_cases (start : Nat) (rest : List UInt8) :
    (∃ word, IsWord (CharClass.quoteByte :: rest) word ∧
      quoted start rest = spelled start .quote word) ∨
    ∃ cause size, 0 < size ∧ size ≤ rest.length + 1 ∧ quoted start rest = (.error cause, size) := by
  unfold quoted
  by_cases hmem : CharClass.quoteByte ∈ rest
  · rw [if_pos hmem]
    have hfront := closed_prefix hmem
    cases hleft : Utf8.undecoded (closed rest) with
    | nil => exact .inl ⟨_, ⟨hfront, List.cons_ne_nil _ _, hleft⟩, rfl⟩
    | cons byte left =>
      have hpos : 0 < (closed rest).length := by
        rw [length_closed]
        exact Nat.succ_pos _
      exact .inr ⟨_, _, hpos, hfront.length_le, rfl⟩
  · rw [if_neg hmem]
    exact .inr ⟨_, _, Nat.succ_pos _, Nat.le_refl _, rfl⟩

theorem Lexeme.stray_cases (start : Nat) {bytes : List UInt8} (h : bytes ≠ []) :
    ∃ cause size, 0 < size ∧ size ≤ bytes.length ∧ stray start bytes = (.error cause, size) := by
  unfold stray
  cases hdecode : Utf8.decode? bytes with
  | some c =>
    have hlength := (Utf8.decode?_eq_some_iff.1 hdecode).length_le
    rw [String.length_utf8EncodeChar] at hlength
    exact ⟨_, _, c.utf8Size_pos, hlength, rfl⟩
  | none => exact ⟨_, _, Utf8.malformedLength_pos _, Utf8.malformedLength_le_length h, rfl⟩

/-- A lexeme is a word spelled as a kind that is not reserved, or a cause
with some of the bytes. The word is valid and stands at the front, and in neither case
is a lexeme without bytes: from this, everything that takes lexemes off a list ends. -/
theorem lexeme_cases (start : Nat) (first : UInt8) (rest : List UInt8) :
    (∃ kind word, kind.isReserved = false ∧ Lexeme.IsWord (first :: rest) word ∧
      lexeme start first rest = Lexeme.spelled start kind word) ∨
    ∃ cause size, 0 < size ∧ size ≤ rest.length + 1 ∧
      lexeme start first rest = (.error cause, size) := by
  unfold lexeme
  cases hkind : Kind.ofByte? first with
  | some kind =>
    have hascii := ByteClass.lt_of_ofByte? hkind
    have hvalid : Utf8.undecoded [first] = [] := by
      apply Utf8.undecoded_of_ascii
      intro byte hbyte
      rw [List.mem_singleton.1 hbyte]
      exact hascii
    have hone : Lexeme.IsWord (first :: rest) [first] :=
      ⟨List.prefix_append [_] _, List.cons_ne_nil _ _, hvalid⟩
    exact .inl ⟨kind, _, Kind.not_isReserved_of_ofByte? hkind, hone, rfl⟩
  | none =>
    dsimp only
    by_cases hstart : ByteClass.isIdentifierStart first = true
    · rw [if_pos hstart]
      exact .inl ⟨_, _, rfl, .of_run ByteClass.lt_of_part (ByteClass.lt_of_start hstart), rfl⟩
    rw [if_neg hstart]
    by_cases hdigit : ByteClass.isDigit first = true
    · have hascii := ByteClass.lt_of_digit first hdigit
      rw [if_pos hdigit]
      exact .inl ⟨_, _, rfl, .of_run ByteClass.lt_of_digit hascii, rfl⟩
    rw [if_neg hdigit]
    by_cases hquote : first = CharClass.quoteByte
    · rw [if_pos hquote, hquote]
      obtain ⟨word, hword, heq⟩ | hcause := Lexeme.quoted_cases start rest
      · exact .inl ⟨.quote, word, rfl, hword, heq⟩
      · exact .inr hcause
    · rw [if_neg hquote]
      exact .inr (Lexeme.stray_cases start (List.cons_ne_nil _ _))

/-- A lexeme has one byte at least, and no more than there are. -/
theorem lexeme_size (start : Nat) (first : UInt8) (rest : List UInt8) :
    0 < (lexeme start first rest).2 ∧ (lexeme start first rest).2 ≤ rest.length + 1 := by
  rcases lexeme_cases start first rest with
    ⟨kind, word, -, hword, heq⟩ | ⟨cause, size, hpos, hle, heq⟩
  · rw [heq]
    exact ⟨List.length_pos_iff.2 hword.ne_nil, hword.isPrefix.length_le⟩
  · rw [heq]
    exact ⟨hpos, hle⟩

namespace Lexeme

/-- The token that is handed out: the one recognised, or an error at `start`. -/
def token (start : Nat) : Except Cause Token → Token
  | .ok token => token
  | .error _ => .error start

/-- The cause that is kept, if there is one. -/
def cause? : Except Cause Token → Option Cause
  | .ok _ => none
  | .error cause => some cause

end Lexeme

theorem isEndOfInput_lexeme (start : Nat) (first : UInt8) (rest : List UInt8) :
    (Lexeme.token start (lexeme start first rest).1).isEndOfInput = false := by
  obtain ⟨kind, word, hkind, -, heq⟩ | ⟨cause, size, -, -, heq⟩ := lexeme_cases start first rest
  · rw [heq]
    exact (Bool.or_eq_false_iff.1 hkind).2
  · rw [heq]
    rfl

end ByteLexer
