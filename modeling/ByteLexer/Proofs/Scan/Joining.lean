import Mathlib.Data.List.TakeWhile
import ByteLexer.Proofs.Scan.Causes
import ByteLexer.Proofs.Scan.Spelling

/-!
# Sources joined by a space

Two sources with a space between them have the tokens of the one and then those of
the other, at offsets moved behind it, and the same holds for the causes of their
errors (`tokenize_join`). Nothing in front of the space looks beyond it, and nothing
is carried over into what stands behind it. The one exception is a quoted string
that the first source leaves open, since it goes on into the second.

What a lexeme is does not change when a space and anything at all is put behind the
bytes (`lexeme_append_space`): a space goes on with no word, it is part of no
character and no malformed front, and a string that is closed has been closed
before. What a lexeme is does not change with its offset either, but for the
offset in it (`lexeme_add`).

**What it does not establish.** Without the space the two may meet in one word, or in one
character, and what another byte in its place would do is not said. A string that is left
open is an exception not only to the theorem but to the fact: what it takes of the second
source is no longer there to be scanned.
-/

namespace ByteLexer

/-! ## Moved offsets -/

/-- The token as it is so many bytes further on. -/
def Token.shift (n : Nat) (token : Token) : Token :=
  { token with offset := token.offset + n }

/-- The cause as it is so many bytes further on. -/
def Cause.shift (n : Nat) : Cause → Cause
  | unclosedQuote offset => .unclosedQuote (offset + n)
  | strayCharacter character offset => .strayCharacter character (offset + n)
  | malformedBytes offset length => .malformedBytes (offset + n) length

/-- A token, and the cause that is kept with it if it is an error. -/
structure Finding where
  token : Token
  cause : Option Cause

/-- What a call hands out, and the cause that it keeps. -/
def Call.finding (call : Call) : Finding :=
  ⟨call.token, call.cause?⟩

/-- The causes that are kept with the errors of a source, one for each in order. -/
def causes (source : ByteArray) : List (Option Cause) :=
  ((Scanner.start source).calls.filter Call.isError).map (·.after.lastCause)

namespace Lexeme

/-- What is found of a lexeme. -/
def finding (start : Nat) (result : Except Cause Token) : Finding :=
  ⟨token start result, cause? result⟩

/-- What is found so many bytes further on. -/
def shift (n : Nat) : Except Cause Token → Except Cause Token
  | .ok token => .ok (token.shift n)
  | .error cause => .error (cause.shift n)

end Lexeme

/-- What is found so many bytes further on. -/
def Finding.shift (n : Nat) (finding : Finding) : Finding :=
  ⟨finding.token.shift n, finding.cause.map (Cause.shift n)⟩

theorem Lexeme.finding_shift (start n : Nat) (result : Except Cause Token) :
    finding (start + n) (shift n result) = (finding start result).shift n := by
  cases result <;> rfl

/-- A lexeme further on is the same but for its offset. -/
theorem lexeme_add (start n : Nat) (first : UInt8) (rest : List UInt8) :
    lexeme (start + n) first rest =
      (Lexeme.shift n (lexeme start first rest).1, (lexeme start first rest).2) := by
  unfold lexeme
  cases Kind.ofByte? first with
  | some kind => rfl
  | none =>
    dsimp only
    by_cases hstart : ByteClass.isIdentifierStart first = true
    · rw [if_pos hstart, if_pos hstart]
      rfl
    rw [if_neg hstart, if_neg hstart]
    by_cases hdigit : ByteClass.isDigit first = true
    · rw [if_pos hdigit, if_pos hdigit]
      rfl
    rw [if_neg hdigit, if_neg hdigit]
    by_cases hquote : first = CharClass.quoteByte
    · rw [if_pos hquote, if_pos hquote]
      unfold Lexeme.quoted
      by_cases hmem : CharClass.quoteByte ∈ rest
      · rw [if_pos hmem, if_pos hmem]
        cases Utf8.undecoded (Lexeme.closed rest) with
        | nil => rfl
        | cons byte left =>
          dsimp only [Lexeme.shift, Cause.shift]
          rw [Nat.add_right_comm]
      · rw [if_neg hmem, if_neg hmem]
        rfl
    · rw [if_neg hquote, if_neg hquote]
      unfold Lexeme.stray
      cases Utf8.decode? (first :: rest) <;> rfl

/-! ## A space behind a lexeme -/

theorem takeWhile_append_cons {inClass : UInt8 → Bool} {byte : UInt8} (h : inClass byte = false)
    (bytes tail : List UInt8) :
    (bytes ++ byte :: tail).takeWhile inClass = bytes.takeWhile inClass := by
  induction bytes with
  | nil => exact List.takeWhile_cons_of_neg (Bool.eq_false_iff.1 h)
  | cons first bytes ih => rw [List.cons_append, List.takeWhile_cons, List.takeWhile_cons, ih]

theorem takeWhile_append_of_mem {bytes : List UInt8} {byte : UInt8} (h : byte ∈ bytes)
    (tail : List UInt8) :
    (bytes ++ tail).takeWhile (· != byte) = bytes.takeWhile (· != byte) := by
  induction bytes with
  | nil => cases h
  | cons first bytes ih =>
    rw [List.cons_append]
    by_cases hfirst : first = byte
    · simp [hfirst]
    · have hmem : byte ∈ bytes := by
        obtain rfl | hmem := List.mem_cons.1 h
        · exact absurd rfl hfirst
        · exact hmem
      simp [hfirst, ih hmem]

theorem Lexeme.closed_append_of_mem {rest : List UInt8} (h : CharClass.quoteByte ∈ rest)
    (tail : List UInt8) : closed (rest ++ tail) = closed rest := by
  rw [closed, takeWhile_append_of_mem h, closed]

/-- A lexeme that leaves no string open is not changed by a space behind the
bytes, whatever follows it. For runs it is that a space belongs to no class, for closed
strings that the first mark is the same, and for errors that a byte below `80` completes
neither a character nor a malformed front. -/
theorem lexeme_append_space {space : UInt8} (hspace : ByteClass.isSpace space = true)
    {start : Nat} {first : UInt8} {rest : List UInt8}
    (hclosed : ∀ offset, (lexeme start first rest).1 ≠ .error (.unclosedQuote offset))
    (tail : List UInt8) :
    lexeme start first (rest ++ space :: tail) = lexeme start first rest := by
  have hascii : space < 0x80 := ByteClass.lt_of_space space hspace
  have hpart : ByteClass.isIdentifierPart space = false := by
    show Kind.identifier.continues space = false
    exact Kind.not_continues_of_isSpace hspace
  have hdigit : ByteClass.isDigit space = false := by
    show Kind.number.continues space = false
    exact Kind.not_continues_of_isSpace hspace
  unfold lexeme at hclosed ⊢
  rw [takeWhile_append_cons hpart, takeWhile_append_cons hdigit]
  cases hkind : Kind.ofByte? first with
  | some kind => rfl
  | none =>
    rw [hkind] at hclosed
    dsimp only at hclosed ⊢
    by_cases hstart : ByteClass.isIdentifierStart first = true
    · rw [if_pos hstart, if_pos hstart]
    rw [if_neg hstart] at hclosed
    rw [if_neg hstart, if_neg hstart]
    by_cases hdigit : ByteClass.isDigit first = true
    · rw [if_pos hdigit, if_pos hdigit]
    rw [if_neg hdigit] at hclosed
    rw [if_neg hdigit, if_neg hdigit]
    by_cases hquote : first = CharClass.quoteByte
    · rw [if_pos hquote, Lexeme.quoted] at hclosed
      by_cases hmem : CharClass.quoteByte ∈ rest
      · rw [if_pos hquote, if_pos hquote, Lexeme.quoted, Lexeme.quoted, if_pos hmem,
          if_pos (List.mem_append_left _ hmem), Lexeme.closed_append_of_mem hmem]
      · rw [if_neg hmem] at hclosed
        exact absurd rfl (hclosed start)
    · have hne : first :: rest ≠ [] := List.cons_ne_nil _ _
      rw [if_neg hquote, if_neg hquote, Lexeme.stray, Lexeme.stray, ← List.cons_append,
        Utf8.decode?_append_cons hne hascii, Utf8.malformedLength_append_cons hne hascii]

/-! ## What is found in some bytes -/

/-- What is found in some bytes, of which the first is at `offset`. It is `lexFrom` with the
causes kept: a token alone does not say why it is an error, and both are needed to say
that two runs have found the same. -/
def findingsFrom (offset : Nat) (bytes : List UInt8) : List Finding :=
  let start := offset + (bytes.takeWhile ByteClass.isSpace).length
  match _h : bytes.dropWhile ByteClass.isSpace with
  | [] => [⟨.endOfInput (offset + bytes.length), none⟩]
  | first :: rest =>
    let found := lexeme start first rest
    Lexeme.finding start found.1 :: findingsFrom (start + found.2) ((first :: rest).drop found.2)
termination_by bytes.length
decreasing_by
  have hsize := lexeme_size (offset + (bytes.takeWhile ByteClass.isSpace).length) first rest
  have hle := (List.dropWhile_suffix (p := ByteClass.isSpace) (l := bytes)).length_le
  rw [_h, List.length_cons] at hle
  rw [List.length_drop, List.length_cons]
  omega

section

variable {offset start : Nat} {bytes rest : List UInt8} {first : UInt8}

theorem findingsFrom_of_nil (h : bytes.dropWhile ByteClass.isSpace = []) :
    findingsFrom offset bytes = [⟨.endOfInput (offset + bytes.length), none⟩] := by
  rw [findingsFrom]
  split
  · rfl
  · rename_i first rest hcons
    rw [h] at hcons
    cases hcons

theorem findingsFrom_of_cons (h : bytes.dropWhile ByteClass.isSpace = first :: rest)
    (hstart : offset + (bytes.takeWhile ByteClass.isSpace).length = start) :
    findingsFrom offset bytes =
      Lexeme.finding start (lexeme start first rest).1 ::
        findingsFrom (start + (lexeme start first rest).2)
          ((first :: rest).drop (lexeme start first rest).2) := by
  subst hstart
  rw [findingsFrom]
  split
  · rename_i hnil
    rw [h] at hnil
    cases hnil
  · rename_i first' rest' hcons
    rw [h] at hcons
    cases hcons
    rfl

theorem findingsFrom_ne_nil (offset : Nat) (bytes : List UInt8) :
    findingsFrom offset bytes ≠ [] := by
  unfold findingsFrom
  split <;> exact List.cons_ne_nil _ _

theorem findingsFrom_append_spaces {spaces : List UInt8}
    (h : ∀ byte ∈ spaces, ByteClass.isSpace byte = true) (bytes : List UInt8) :
    findingsFrom offset (spaces ++ bytes) = findingsFrom (offset + spaces.length) bytes := by
  have hstart : offset + ((spaces ++ bytes).takeWhile ByteClass.isSpace).length =
      offset + spaces.length + (bytes.takeWhile ByteClass.isSpace).length := by
    rw [List.takeWhile_append_of_pos h, List.length_append, Nat.add_assoc]
  have hdrop : (spaces ++ bytes).dropWhile ByteClass.isSpace =
      bytes.dropWhile ByteClass.isSpace := List.dropWhile_append_of_pos h
  cases hrest : bytes.dropWhile ByteClass.isSpace with
  | nil =>
    rw [findingsFrom_of_nil hrest, findingsFrom_of_nil (hdrop.trans hrest), List.length_append,
      Nat.add_assoc]
  | cons first rest =>
    rw [findingsFrom_of_cons hrest rfl, findingsFrom_of_cons (hdrop.trans hrest) hstart]

/-- So many bytes further on the same is found, but for the offsets. -/
theorem findingsFrom_add (offset n : Nat) (bytes : List UInt8) :
    findingsFrom (offset + n) bytes = (findingsFrom offset bytes).map (Finding.shift n) := by
  fun_induction findingsFrom offset bytes with
  | case1 offset bytes hnil =>
    rw [findingsFrom_of_nil hnil, Nat.add_right_comm]
    rfl
  | case2 offset bytes start first rest hcons found ih =>
    have hstart : offset + n + (bytes.takeWhile ByteClass.isSpace).length = start + n :=
      Nat.add_right_comm _ _ _
    rw [findingsFrom_of_cons hcons hstart, lexeme_add, Lexeme.finding_shift, List.map_cons, ← ih,
      Nat.add_right_comm]

/-- **What is found in some bytes does not change** when a space and anything at all
is put behind them, and behind the space all is found that is found there by itself. -/
theorem findingsFrom_append_cons {space : UInt8} (hspace : ByteClass.isSpace space = true)
    (hclosed : ∀ finding ∈ findingsFrom offset bytes, ∀ i,
      finding.cause ≠ some (.unclosedQuote i)) (tail : List UInt8) :
    findingsFrom offset (bytes ++ space :: tail) =
      (findingsFrom offset bytes).dropLast ++ findingsFrom (offset + bytes.length + 1) tail := by
  fun_induction findingsFrom offset bytes with
  | case1 offset bytes hnil =>
    have hspaces : ∀ byte ∈ bytes ++ [space], ByteClass.isSpace byte = true := by
      rw [List.forall_mem_append]
      exact ⟨List.dropWhile_eq_nil_iff.1 hnil, List.forall_mem_singleton.2 hspace⟩
    rw [← List.singleton_append, ← List.append_assoc, findingsFrom_append_spaces hspaces,
      List.length_append]
    rfl
  | case2 offset bytes start first rest hcons found ih =>
    obtain ⟨hfirst, hlater⟩ := List.forall_mem_cons.1 hclosed
    have hopen : ∀ i, (lexeme start first rest).1 ≠ .error (.unclosedQuote i) := by
      intro i hi
      refine hfirst i ?_
      show Lexeme.cause? (lexeme start first rest).1 = _
      rw [hi]
      rfl
    have hsplit := List.takeWhile_append_dropWhile (p := ByteClass.isSpace) (l := bytes)
    rw [hcons] at hsplit
    have hlength := congrArg List.length hsplit
    rw [List.length_append, List.length_cons] at hlength
    have hnot : ¬ByteClass.isSpace first = true :=
      Bool.eq_false_iff.1 (not_of_dropWhile_eq_cons hcons)
    have hbytes : bytes ++ space :: tail = bytes.takeWhile ByteClass.isSpace ++
        first :: (rest ++ space :: tail) := by
      conv => lhs; rw [← hsplit]
      rw [List.append_assoc, List.cons_append]
    have hspaces : ∀ byte ∈ bytes.takeWhile ByteClass.isSpace, ByteClass.isSpace byte = true :=
      List.all_eq_true.1 List.all_takeWhile
    have hdrop : (first :: (rest ++ space :: tail)).dropWhile ByteClass.isSpace =
        first :: (rest ++ space :: tail) := List.dropWhile_cons_of_neg hnot
    have hstart : start + ((first :: (rest ++ space :: tail)).takeWhile
        ByteClass.isSpace).length = start := by
      rw [List.takeWhile_cons_of_neg hnot]
      rfl
    have hsize : (lexeme start first rest).2 ≤ (first :: rest).length :=
      (lexeme_size start first rest).2
    have hlast : start + (lexeme start first rest).2 +
        ((first :: rest).drop (lexeme start first rest).2).length + 1 =
          offset + bytes.length + 1 := by
      have hoffset : start = offset + (bytes.takeWhile ByteClass.isSpace).length := rfl
      rw [List.length_drop]
      rw [List.length_cons] at hsize ⊢
      omega
    rw [hbytes, findingsFrom_append_spaces hspaces, findingsFrom_of_cons hdrop hstart,
      lexeme_append_space hspace hopen, ← List.cons_append, List.drop_append_of_le_length hsize,
      ih hlater, hlast, List.dropLast_cons_of_ne_nil (findingsFrom_ne_nil _ _), List.cons_append]

end

/-! ## What is found in a source -/

namespace Scanner

variable {scanner : Scanner}

/-- The calls of a run find what there is in the bytes that are left. -/
theorem map_finding_calls (h : scanner.cursor.ReadAhead) :
    scanner.calls.map Call.finding = findingsFrom scanner.offset scanner.rest := by
  fun_induction calls scanner with
  | case1 scanner hend =>
    have hrest := (isEndOfInput_next_iff h).1 hend
    have hsize : scanner.offset + scanner.rest.length = scanner.source.size :=
      h.position_add_length
    rw [findingsFrom_of_nil hrest, hsize, List.map_singleton, call, next_eq_of_nil h hrest]
    rfl
  | case2 scanner hend ih =>
    have hne := mt (isEndOfInput_next_iff h).2 hend
    obtain ⟨first, more, hrest⟩ := List.exists_cons_of_ne_nil hne
    have hstart : scanner.offset + (scanner.rest.takeWhile ByteClass.isSpace).length =
        scanner.startOffset := rfl
    have hfinding : scanner.call.finding =
        Lexeme.finding scanner.startOffset (lexeme scanner.startOffset first more).1 := by
      rw [call, next_eq_of_cons h hrest, Call.finding, Call.cause?, Call.isError]
      dsimp only
      rcases lexeme_cases scanner.startOffset first more with
        ⟨kind, word, hkind, -, heq⟩ | ⟨cause, size, -, -, heq⟩
      · have hnot : (Lexeme.token scanner.startOffset
            (Lexeme.spelled scanner.startOffset kind word).1).isError = false :=
          (Bool.or_eq_false_iff.1 hkind).1
        rw [heq, hnot]
        rfl
      · rw [heq]
        rfl
    rw [findingsFrom_of_cons hrest hstart, List.map_cons, ih (readAhead_next h),
      offset_next_of_cons h hrest, rest_next_of_cons h hrest, hfinding]

theorem map_finding_calls_start (source : ByteArray) :
    (start source).calls.map Call.finding = findingsFrom 0 source.data.toList := by
  rw [map_finding_calls (readAhead_start source), rest_start, offset_start]

end Scanner

theorem tokenize_eq_findings (source : ByteArray) :
    tokenize source = (findingsFrom 0 source.data.toList).map Finding.token := by
  rw [Scanner.tokenize_eq_map_calls, ← Scanner.map_finding_calls_start, List.map_map]
  rfl

theorem causes_eq_findings (source : ByteArray) :
    causes source = ((findingsFrom 0 source.data.toList).filter (·.token.isError)).map
      Finding.cause := by
  rw [causes, ← Scanner.map_finding_calls_start, List.filter_map, List.map_map]
  refine List.map_congr_left fun call hcall => ?_
  exact (if_pos (List.mem_filter.1 hcall).2).symm

/-- What is found last is the end of the source. -/
theorem filter_isError_dropLast {bytes : List UInt8} {offset : Nat} :
    (findingsFrom offset bytes).dropLast.filter (·.token.isError) =
      (findingsFrom offset bytes).filter (·.token.isError) := by
  fun_induction findingsFrom offset bytes with
  | case1 => rfl
  | case2 offset bytes start first rest hcons found ih =>
    rw [List.dropLast_cons_of_ne_nil (findingsFrom_ne_nil _ _), List.filter_cons,
      List.filter_cons, ih]

/-- A source without a quotation mark leaves no string open. -/
theorem not_mem_causes {source : ByteArray} (h : CharClass.quoteByte ∉ source.data.toList)
    (offset : Nat) : some (Cause.unclosedQuote offset) ∉ causes source := by
  intro hmem
  obtain ⟨call, hcall, hkept⟩ := List.mem_map.1 hmem
  obtain ⟨hcall, herror⟩ := List.mem_filter.1 hcall
  obtain ⟨cause, hcause, hblamed⟩ :=
    Scanner.exists_cause_of_mem_calls (Scanner.readAhead_start source) hcall herror
  rw [hcause, Option.some.injEq] at hkept
  rw [hkept, Scanner.source_start] at hblamed
  generalize call.after.offset = stop at hblamed
  cases hblamed with
  | unclosedQuote hopen _ => exact h (Array.mem_toList_iff.2 (Array.mem_of_getElem? hopen))

/-- **Sources joined by a space have the tokens and the causes of both**, those of the
second moved behind the space, unless the first leaves a quoted string open. The end of the
first source is no token of the whole, so it is dropped; its bytes may be anything else,
also half a character at the very end. -/
theorem tokenize_join (a b : ByteArray) (space : UInt8)
    (hspace : ByteClass.isSpace space = true)
    (hclosed : ∀ offset, some (Cause.unclosedQuote offset) ∉ causes a) :
    tokenize (a.push space ++ b) =
        (tokenize a).dropLast ++ (tokenize b).map (Token.shift (a.size + 1)) ∧
      causes (a.push space ++ b) =
        causes a ++ (causes b).map (Option.map (Cause.shift (a.size + 1))) := by
  have hbytes : (a.push space ++ b).data.toList = a.data.toList ++ space :: b.data.toList := by
    simp
  have hopen : ∀ finding ∈ findingsFrom 0 a.data.toList, ∀ i,
      finding.cause ≠ some (.unclosedQuote i) := by
    rw [← Scanner.map_finding_calls_start]
    intro finding hfinding i hcause
    obtain ⟨call, hcall, rfl⟩ := List.mem_map.1 hfinding
    rw [Call.finding, Call.cause?] at hcause
    by_cases herror : call.isError = true
    · rw [if_pos herror] at hcause
      exact hclosed i (List.mem_map.2 ⟨call, List.mem_filter.2 ⟨hcall, herror⟩, hcause⟩)
    · rw [if_neg herror] at hcause
      cases hcause
  have hfindings : findingsFrom 0 (a.push space ++ b).data.toList =
      (findingsFrom 0 a.data.toList).dropLast ++
        (findingsFrom 0 b.data.toList).map (Finding.shift (a.size + 1)) := by
    rw [hbytes, findingsFrom_append_cons hspace hopen, ← findingsFrom_add, Nat.add_assoc]
    rfl
  constructor
  · rw [tokenize_eq_findings, hfindings, tokenize_eq_findings, tokenize_eq_findings,
      List.map_append, List.map_dropLast, List.map_map, List.map_map]
    rfl
  · rw [causes_eq_findings, hfindings, causes_eq_findings, causes_eq_findings, List.filter_append,
      List.map_append, filter_isError_dropLast, List.filter_map, List.map_map, List.map_map]
    rfl

/-- Two bytes of a character that the end of a source cuts short, and a string
that is left open behind the space. -/
theorem tokenize_join_cut_short : ByteClass.isSpace 0x20 = true ∧
    (∀ offset, some (Cause.unclosedQuote offset) ∉ causes ⟨#[0xE6, 0x9C]⟩) ∧
    tokenize (ByteArray.push ⟨#[0xE6, 0x9C]⟩ 0x20 ++ ⟨#[0x22, 0x61]⟩) =
      (tokenize ⟨#[0xE6, 0x9C]⟩).dropLast ++
        (tokenize ⟨#[0x22, 0x61]⟩).map (Token.shift 3) ∧
    causes (ByteArray.push ⟨#[0xE6, 0x9C]⟩ 0x20 ++ ⟨#[0x22, 0x61]⟩) =
      causes ⟨#[0xE6, 0x9C]⟩ ++
        (causes ⟨#[0x22, 0x61]⟩).map (Option.map (Cause.shift 3)) ∧
    tokenize (ByteArray.push ⟨#[0xE6, 0x9C]⟩ 0x20 ++ ⟨#[0x22, 0x61]⟩) =
      [.error 0, .error 3, .endOfInput 5] ∧
    causes (ByteArray.push ⟨#[0xE6, 0x9C]⟩ 0x20 ++ ⟨#[0x22, 0x61]⟩) =
      [some (.malformedBytes 0 2), some (.unclosedQuote 3)] := by
  have hclosed : ∀ offset, some (Cause.unclosedQuote offset) ∉ causes ⟨#[0xE6, 0x9C]⟩ :=
    not_mem_causes (by decide)
  obtain ⟨htokens, hcauses⟩ := tokenize_join _ ⟨#[0x22, 0x61]⟩ 0x20 rfl hclosed
  exact ⟨rfl, hclosed, htokens, hcauses, by decide +kernel, by decide +kernel⟩

end ByteLexer
