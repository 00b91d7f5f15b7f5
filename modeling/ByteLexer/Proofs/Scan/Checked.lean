import ByteLexer.Proofs.Scan.Primed

/-!
# Scanning without a fault

A scanner asserts conditions, takes slices, adds and subtracts offsets, and makes text
of bytes that it takes to be ASCII. Here it is written down once more with each of
these as an operation that can fail (`Fault`), where sums have a limit, the largest
number that a word holds.

No check fails where the limit is at least the length of the source: whatever requests
are made, the checked scanner comes to its end and has done what the scanner does
(`faultless`). For each operation there is one lemma that says so. Those about moves
hold of every cursor. Those about tokens are about cursors that have read ahead, since
it is what has been read that makes a slice one of ASCII bytes.

**What it takes as given.** Which operations can fail, and with what, is read off the
program once more by hand: a check that is missing here is not proved to hold. Reading is
checked down to its slices, while `Utf8.validate` and the search for a byte are taken
to be total, as they are in the standard library. The limit stands for the width of a
word; that a source is no longer than a word can count is asked, not proved.
-/

namespace ByteLexer

/-- What an operation fails with. -/
inductive Fault where
  /-- A condition that was asserted does not hold. -/
  | assertion
  /-- A slice or an index is outside the bytes. -/
  | range
  /-- A sum is beyond the limit. -/
  | overflow
  /-- A difference is below zero. -/
  | underflow
  /-- Bytes that were taken to be text are none. -/
  | text
  deriving DecidableEq, Repr

namespace Checked

/-! ## Checks -/

/-- Asserts a condition. -/
def assert (condition : Prop) [Decidable condition] : Except Fault Unit :=
  if condition then .ok () else .error .assertion

/-- The byte at an index. -/
def byteAt (bytes : ByteArray) (i : Nat) : Except Fault UInt8 :=
  if h : i < bytes.size then .ok bytes[i] else .error .range

/-- The bytes between two offsets. -/
def slice (bytes : ByteArray) (first last : Nat) : Except Fault ByteArray :=
  if first ≤ last ∧ last ≤ bytes.size then .ok (bytes.extract first last) else .error .range

/-- The sum of two numbers. -/
def add (limit a b : Nat) : Except Fault Nat :=
  if a + b ≤ limit then .ok (a + b) else .error .overflow

/-- The difference of two numbers. -/
def sub (a b : Nat) : Except Fault Nat :=
  if b ≤ a then .ok (a - b) else .error .underflow

/-- The text that some bytes encode. -/
def text (bytes : ByteArray) : Except Fault String :=
  match String.fromUTF8? bytes with
  | some text => .ok text
  | none => .error .text

/-- What follows an operation that does not fail is done with its result. It is all that is
used of the monad: each operation has a lemma that it does not fail, and a run is taken
apart by these in the order in which it is written. -/
theorem bind_of_eq_ok {α β : Type} {x : Except Fault α} {a : α} (h : x = .ok a)
    (f : α → Except Fault β) : (x >>= f) = f a := by
  rw [h]
  rfl

section

variable {bytes : ByteArray} {limit a b first last : Nat}

theorem assert_eq_ok {condition : Prop} [Decidable condition] (h : condition) :
    assert condition = .ok () :=
  if_pos h

theorem slice_eq_ok (h : first ≤ last) (hlast : last ≤ bytes.size) :
    slice bytes first last = .ok (bytes.extract first last) :=
  if_pos ⟨h, hlast⟩

theorem add_eq_ok (h : a + b ≤ limit) : add limit a b = .ok (a + b) :=
  if_pos h

theorem sub_eq_ok (h : b ≤ a) : sub a b = .ok (a - b) :=
  if_pos h

theorem text_eq_ok {bytes : List UInt8} (h : ∀ byte ∈ bytes, byte < 0x80) :
    text bytes.toByteArray = .ok (Utf8.text bytes) := by
  have hvalid : bytes.toByteArray.IsValidUTF8 :=
    Utf8.isValidUTF8_iff_undecoded.2 (Utf8.undecoded_of_ascii h)
  have htext : String.fromUTF8? bytes.toByteArray =
      some (String.fromUTF8 bytes.toByteArray hvalid) := dif_pos hvalid
  rw [text, Utf8.text, htext]
  rfl

end

/-! ## Reading -/

/-- Reads what stands at the front of some bytes, the first of them above `7F`. -/
def multibyte (bytes : ByteArray) : Except Fault Utf8.Step := do
  let first ← byteAt bytes 0
  match Utf8.character? bytes 0 (Utf8.sequenceWidth first) with
  | some c => .ok ⟨.char c, Utf8.sequenceWidth first⟩
  | none =>
    let window ← slice bytes 0 (min bytes.size Utf8.maxWidth)
    .ok ⟨.malformed, Utf8.malformedWidth window⟩

/-- Reads what stands at an offset. -/
def readAt (source : ByteArray) (offset : Nat) : Except Fault (Option Utf8.Step) :=
  if h : offset < source.size then
    if source[offset] < 0x80 then .ok (some ⟨.char (Char.ofNat source[offset].toNat), 1⟩)
    else do
      let bytes ← slice source offset source.size
      let step ← multibyte bytes
      .ok (some step)
  else .ok none

theorem multibyte_eq {bytes : ByteArray} (h : 0 < bytes.size) :
    multibyte bytes = .ok (Utf8.multibyteAt bytes 0 bytes[0]) := by
  have hfirst : byteAt bytes 0 = .ok bytes[0] := dif_pos h
  have hwindow : slice bytes 0 (min bytes.size Utf8.maxWidth) =
      .ok (bytes.extract 0 (0 + Utf8.maxWidth)) := by
    rw [slice_eq_ok (Nat.zero_le _) (Nat.min_le_left _ _), extract_eq, extract_eq,
      Nat.zero_add, Nat.sub_zero, Nat.sub_zero]
    have hlength : bytes.size = (bytesFrom bytes 0).length := by
      rw [length_bytesFrom, Nat.sub_zero]
    rw [hlength, Nat.min_comm, ← List.take_eq_take_min]
  rw [multibyte, bind_of_eq_ok hfirst, Utf8.multibyteAt]
  cases Utf8.character? bytes 0 (Utf8.sequenceWidth bytes[0]) with
  | some c => rfl
  | none => exact bind_of_eq_ok hwindow _

theorem readAt_eq (source : ByteArray) (offset : Nat) :
    readAt source offset = .ok (Utf8.readAt source offset) := by
  by_cases hlt : offset < source.size
  · by_cases hascii : source[offset] < 0x80
    · rw [readAt, Utf8.readAt, dif_pos hlt, dif_pos hlt, if_pos hascii]
      dsimp only
      rw [if_pos hascii]
    · have hread := Utf8.readAt_extract source offset
      have hsize : 0 < (source.extract offset source.size).size := by
        rw [ByteArray.size_extract]
        omega
      have hfirst : (source.extract offset source.size)[0] = source[offset] := by
        rw [ByteArray.getElem_extract]
        rfl
      rw [Utf8.readAt, dif_pos hsize] at hread
      dsimp only at hread
      rw [if_neg (hfirst ▸ hascii)] at hread
      rw [readAt, dif_pos hlt, if_neg hascii,
        bind_of_eq_ok (slice_eq_ok (Nat.le_of_lt hlt) (Nat.le_refl _)),
        bind_of_eq_ok (multibyte_eq hsize), hread]
  · rw [readAt, dif_neg hlt, Utf8.readAt, dif_neg hlt]

/-! ## Moving -/

/-- The cursor at the place after this one. -/
def advance (limit : Nat) (cursor : Cursor) : Except Fault Cursor := do
  let step ← readAt cursor.source cursor.next
  match step with
  | none => .ok ⟨cursor.source, none, cursor.source.size, cursor.source.size⟩
  | some step =>
    let next ← add limit cursor.next step.width
    assert (cursor.next < next ∧ next ≤ cursor.source.size)
    .ok ⟨cursor.source, some step.reading, cursor.next, next⟩

/-- The cursor that has jumped to an offset. -/
def advanceTo (limit : Nat) (cursor : Cursor) (offset : Nat) : Except Fault Cursor := do
  assert (cursor.next ≤ offset)
  advance limit { cursor with next := offset }

section

variable {limit : Nat} {cursor : Cursor}

theorem advance_eq (hlimit : cursor.source.size ≤ limit) :
    advance limit cursor = .ok cursor.advance := by
  rw [advance, bind_of_eq_ok (readAt_eq _ _), Cursor.advance, Cursor.moveTo]
  cases hstep : Utf8.readAt cursor.source cursor.next with
  | none => rfl
  | some step =>
    have hpos := Utf8.width_pos_of_readAt hstep
    have hle := Utf8.add_width_le_size hstep
    dsimp only
    rw [bind_of_eq_ok (add_eq_ok (Nat.le_trans hle hlimit)),
      bind_of_eq_ok (assert_eq_ok ⟨Nat.lt_add_of_pos_right hpos, hle⟩)]

/-- Whatever the limit, a cursor that has moved has moved to the place after. -/
theorem eq_advance_of_ok {after : Cursor} (h : advance limit cursor = .ok after) :
    after = cursor.advance := by
  rw [advance, bind_of_eq_ok (readAt_eq _ _)] at h
  rw [Cursor.advance, Cursor.moveTo]
  cases hstep : Utf8.readAt cursor.source cursor.next with
  | none =>
    rw [hstep] at h
    exact (Except.ok.inj h).symm
  | some step =>
    rw [hstep] at h
    dsimp only at h
    by_cases hsum : cursor.next + step.width ≤ limit
    · rw [bind_of_eq_ok (add_eq_ok hsum)] at h
      have hpos := Utf8.width_pos_of_readAt hstep
      have hle := Utf8.add_width_le_size hstep
      rw [bind_of_eq_ok (assert_eq_ok ⟨Nat.lt_add_of_pos_right hpos, hle⟩)] at h
      exact (Except.ok.inj h).symm
    · rw [add, if_neg hsum] at h
      cases h

theorem advanceTo_eq {offset : Nat} (hlimit : cursor.source.size ≤ limit)
    (h : cursor.next ≤ offset) : advanceTo limit cursor offset = .ok (cursor.moveTo offset) := by
  rw [advanceTo, bind_of_eq_ok (assert_eq_ok h)]
  exact advance_eq hlimit

end

/-- The cursor after all characters of a class that follow. -/
def skipWhile (limit : Nat) (inClass : Char → Bool) (cursor : Cursor) : Except Fault Cursor :=
  if _h : cursor.character?.any inClass then
    match _hafter : advance limit cursor with
    | .ok after => skipWhile limit inClass after
    | .error fault => .error fault
  else .ok cursor
termination_by cursor.remaining
decreasing_by
  rw [eq_advance_of_ok _hafter]
  exact Cursor.remaining_advance_lt (Cursor.isSome_current_of_any _h)

section

variable {limit : Nat} {cursor : Cursor}

theorem skipWhile_eq (hlimit : cursor.source.size ≤ limit) (inClass : Char → Bool) :
    skipWhile limit inClass cursor = .ok (cursor.skipWhile inClass) := by
  fun_induction Cursor.skipWhile inClass cursor with
  | case1 cursor hany ih =>
    have hsource : cursor.advance.source = cursor.source := cursor.source_moveTo _
    rw [skipWhile, dif_pos hany]
    split
    · rename_i after hafter
      rw [eq_advance_of_ok hafter]
      exact ih (hsource ▸ hlimit)
    · rename_i fault hfault
      rw [advance_eq hlimit] at hfault
      cases hfault
  | case2 cursor hany => rw [skipWhile, dif_neg hany]

end

/-! ## Tokens -/

/-- The token of this kind that is made of everything up to `after`. -/
def tokenTo (cursor after : Cursor) (kind : Kind) : Except Fault Token := do
  let bytes ← slice after.source cursor.position after.position
  assert (bytes.data.toList.all (· < 0x80))
  let text ← text bytes
  .ok ⟨kind, text, cursor.position⟩

/-- The token of this kind that is made of the characters of a class that follow. -/
def recogniseRun (limit : Nat) (cursor : Cursor) (kind : Kind) (inClass : Char → Bool) :
    Except Fault (Except Cause Token × Cursor) := do
  let after ← skipWhile limit inClass cursor
  let token ← tokenTo cursor after kind
  .ok (.ok token, after)

/-- The quoted string that is made of everything up to `after`. -/
def quoteTo (limit : Nat) (cursor after : Cursor) :
    Except Fault (Except Cause Token × Cursor) := do
  let bytes ← slice after.source cursor.position after.position
  match Utf8.validate bytes with
  | .ok text => .ok (.ok ⟨.quote, text, cursor.position⟩, after)
  | .error defect =>
    let left ← sub bytes.size defect.offset
    let offset ← add limit cursor.position defect.offset
    .ok (.error (.malformedBytes offset (defect.length.getD left)), after)

/-- The quoted string that opens where the cursor stands. -/
def recogniseQuote (limit : Nat) (cursor : Cursor) :
    Except Fault (Except Cause Token × Cursor) := do
  let body ← slice cursor.source cursor.next cursor.source.size
  match body.findIdx? (· == CharClass.quoteByte) with
  | none =>
    let after ← advanceTo limit cursor cursor.source.size
    .ok (.error (.unclosedQuote cursor.position), after)
  | some close =>
    let mark ← add limit cursor.next close
    let behind ← add limit mark 1
    let after ← advanceTo limit cursor behind
    quoteTo limit cursor after

/-- The token that starts with the character `c`, where the cursor stands. -/
def recogniseFrom (limit : Nat) (cursor : Cursor) (c : Char) :
    Except Fault (Except Cause Token × Cursor) :=
  match Kind.ofChar? c with
  | some kind => do
    let after ← advance limit cursor
    let token ← tokenTo cursor after kind
    .ok (.ok token, after)
  | none =>
    if CharClass.isIdentifierStart c then
      recogniseRun limit cursor .identifier CharClass.isIdentifierPart
    else if CharClass.isDigit c then recogniseRun limit cursor .number CharClass.isDigit
    else if c = CharClass.quoteMark then recogniseQuote limit cursor
    else do
      let after ← advance limit cursor
      .ok (.error (.strayCharacter c cursor.position), after)

/-- The token that starts where the cursor stands. -/
def recognise (limit : Nat) (cursor : Cursor) : Except Fault (Except Cause Token × Cursor) :=
  match cursor.current with
  | none => .ok (.ok (.endOfInput cursor.next), cursor)
  | some .malformed => do
    let length ← sub cursor.next cursor.position
    let after ← advance limit cursor
    .ok (.error (.malformedBytes cursor.position length), after)
  | some (.char c) => recogniseFrom limit cursor c

section

variable {limit : Nat} {cursor : Cursor}

/-- Where an ASCII character has been read its byte stands. -/
theorem exists_rest_of_lt (h : cursor.ReadAhead) {c : Char} (hc : cursor.current = some (.char c))
    (hlt : c.val < 0x80) : ∃ first more, cursor.rest = first :: more ∧ first < 0x80 := by
  cases hrest : cursor.rest with
  | nil =>
    rw [(h.of_rest_eq_nil hrest).1] at hc
    cases hc
  | cons first more =>
    refine ⟨first, more, rfl, ?_⟩
    by_contra hascii
    have hchar : cursor.character? = some c := by rw [Cursor.character?, hc]
    exact h.not_lt_of_not_ascii hrest hascii hchar hlt

/-- The bytes of a token are a front of those left, below `80` throughout. -/
theorem tokenTo_eq (h : cursor.ReadAhead) (kind : Kind) {n : Nat} (hn : n ≤ cursor.rest.length)
    (hascii : ∀ byte ∈ cursor.rest.take n, byte < 0x80) :
    tokenTo cursor (cursor.moveTo (cursor.position + n)) kind =
      .ok (cursor.tokenTo (cursor.moveTo (cursor.position + n)) kind) := by
  have hlength := h.position_add_length
  have hbytes : slice cursor.source cursor.position (cursor.position + n) =
      .ok (cursor.rest.take n).toByteArray := by
    rw [slice_eq_ok (Nat.le_add_right _ _) (by omega), extract_eq, Nat.add_sub_cancel_left,
      Cursor.rest]
  have hall : (cursor.rest.take n).all (· < 0x80) = true :=
    List.all_eq_true.2 fun byte hbyte => decide_eq_true (hascii byte hbyte)
  rw [h.tokenTo_eq kind hn, tokenTo, h.position_moveTo_add hn, Cursor.source_moveTo,
    bind_of_eq_ok hbytes, List.toList_data_toByteArray, bind_of_eq_ok (assert_eq_ok hall),
    bind_of_eq_ok (text_eq_ok hascii)]

theorem recogniseRun_eq (hlimit : cursor.source.size ≤ limit) (h : cursor.ReadAhead) (kind : Kind)
    {inClass : Char → Bool} (hclass : ∀ c, inClass c = true → c.val < 0x80) :
    recogniseRun limit cursor kind inClass =
      .ok (.ok (cursor.recogniseRun kind inClass).1, (cursor.recogniseRun kind inClass).2) := by
  have hprefix := List.takeWhile_prefix (l := cursor.rest) (onBytes inClass)
  have hascii : ∀ byte ∈ cursor.rest.take (cursor.rest.takeWhile (onBytes inClass)).length,
      byte < 0x80 := by
    rw [← List.prefix_iff_eq_take.1 hprefix]
    intro byte hbyte
    have hin := List.all_eq_true.1 List.all_takeWhile byte hbyte
    rw [onBytes, Bool.and_eq_true] at hin
    exact of_decide_eq_true hin.1
  have htoken := tokenTo_eq h kind hprefix.length_le hascii
  rw [← h.skipWhile_eq hclass] at htoken
  rw [recogniseRun, bind_of_eq_ok (skipWhile_eq hlimit inClass), bind_of_eq_ok htoken]
  rfl

/-- A defect begins among the bytes that have it. -/
theorem offset_le_of_validate {bytes : ByteArray} {defect : Utf8.Defect}
    (h : Utf8.validate bytes = .error defect) : defect.offset ≤ bytes.size := by
  rw [← toByteArray_toList bytes, Utf8.validate_eq] at h
  split at h
  · cases h
  · cases h
    exact Nat.sub_le _ _

/-- Searching what follows an offset is searching from there on. -/
theorem findIdx?_extract (source : ByteArray) (first : Nat) (byte : UInt8) :
    source.findIdx? (· == byte) first =
      ((source.extract first source.size).findIdx? (· == byte)).map (first + ·) := by
  have hbytes := bytesFrom_extract source first
  by_cases hmem : byte ∈ bytesFrom source first
  · rw [findIdx?_of_mem hmem, findIdx?_of_mem (hbytes ▸ hmem), hbytes, Nat.zero_add]
    rfl
  · rw [findIdx?_of_not_mem hmem, findIdx?_of_not_mem (hbytes ▸ hmem)]
    rfl

/-- No check fails on a quoted string. The mark that is found lies inside the source, so
neither sum is beyond its length; and a defect that is reported lies inside the stretch
that was validated, so the difference is not below zero. -/
theorem recogniseQuote_eq (hlimit : cursor.source.size ≤ limit) (h : cursor.ReadAhead) :
    recogniseQuote limit cursor = .ok cursor.recogniseQuote := by
  have hposition := h.position_le_next
  have hsearch := findIdx?_extract cursor.source cursor.next CharClass.quoteByte
  rw [recogniseQuote, bind_of_eq_ok (slice_eq_ok h.next_le (Nat.le_refl _)),
    Cursor.recogniseQuote]
  cases hclose : (cursor.source.extract cursor.next cursor.source.size).findIdx?
      (· == CharClass.quoteByte) with
  | none =>
    rw [hclose, Option.map_none] at hsearch
    rw [hsearch]
    exact bind_of_eq_ok (advanceTo_eq hlimit h.next_le) _
  | some close =>
    have hbehind : cursor.next + close + 1 ≤ cursor.source.size := by
      obtain ⟨hlt, -⟩ := exists_of_findIdx? hclose
      rw [ByteArray.size_extract] at hlt
      omega
    have hmove : (cursor.moveTo (cursor.next + close + 1)).position = cursor.next + close + 1 := by
      rw [Cursor.position_moveTo, Nat.min_eq_left hbehind]
    rw [hclose, Option.map_some] at hsearch
    rw [hsearch]
    dsimp only
    rw [bind_of_eq_ok (add_eq_ok (by omega)), bind_of_eq_ok (add_eq_ok (by omega)),
      bind_of_eq_ok (advanceTo_eq hlimit (by omega)), quoteTo, Cursor.source_moveTo,
      bind_of_eq_ok (slice_eq_ok (by omega) (by omega))]
    cases hvalidate : Utf8.validate (cursor.source.extract cursor.position
        (cursor.moveTo (cursor.next + close + 1)).position) with
    | ok text => rfl
    | error defect =>
      have hoffset := offset_le_of_validate hvalidate
      have hsum : cursor.position + defect.offset ≤ limit := by
        rw [ByteArray.size_extract] at hoffset
        omega
      dsimp only
      rw [bind_of_eq_ok (sub_eq_ok hoffset), bind_of_eq_ok (add_eq_ok hsum)]

theorem recogniseFrom_eq (hlimit : cursor.source.size ≤ limit) (h : cursor.ReadAhead) {c : Char}
    (hc : cursor.current = some (.char c)) :
    recogniseFrom limit cursor c = .ok (cursor.recogniseFrom c) := by
  unfold recogniseFrom Cursor.recogniseFrom
  cases hkind : Kind.ofChar? c with
  | some kind =>
    obtain ⟨first, more, hrest, hascii⟩ :=
      exists_rest_of_lt h hc (ByteClass.lt_of_ofChar? hkind)
    have hadvance : cursor.advance = cursor.moveTo (cursor.position + 1) := by
      rw [Cursor.advance, (h.of_ascii hrest hascii).2]
    have hone : 1 ≤ cursor.rest.length := by
      rw [hrest]
      exact Nat.le_add_left _ _
    have hbyte : ∀ byte ∈ cursor.rest.take 1, byte < 0x80 := by
      rw [hrest]
      exact List.forall_mem_singleton.2 hascii
    dsimp only
    rw [bind_of_eq_ok (advance_eq hlimit), hadvance, bind_of_eq_ok (tokenTo_eq h kind hone hbyte)]
  | none =>
    dsimp only
    split
    · exact recogniseRun_eq hlimit h .identifier fun _ => ByteClass.lt_of_isIdentifierPart
    · split
      · exact recogniseRun_eq hlimit h .number fun _ => ByteClass.lt_of_isDigit
      · split
        · exact recogniseQuote_eq hlimit h
        · exact bind_of_eq_ok (advance_eq hlimit) _

theorem recognise_eq (hlimit : cursor.source.size ≤ limit) (h : cursor.ReadAhead) :
    recognise limit cursor = .ok cursor.recognise := by
  unfold recognise Cursor.recognise
  cases hcurrent : cursor.current with
  | none => rfl
  | some reading =>
    cases reading with
    | malformed =>
      dsimp only
      rw [bind_of_eq_ok (sub_eq_ok h.position_le_next), bind_of_eq_ok (advance_eq hlimit)]
    | char c => exact recogniseFrom_eq hlimit h hcurrent

/-- A cursor that has not read ahead can fail. -/
example : recognise 1 ⟨⟨#[0x2B]⟩, some .malformed, 1, 0⟩ = .error .underflow :=
  rfl

end

/-! ## Calls and requests -/

/-- The next token, and the scanner after it. -/
def next (limit : Nat) (scanner : Scanner) : Except Fault (Token × Scanner) := do
  let cursor ← skipWhile limit CharClass.isSpace scanner.cursor
  let (result, after) ← recognise limit cursor
  match result with
  | .ok token => .ok (token, { scanner with cursor := after })
  | .error cause =>
    .ok (.error cursor.position, { scanner with cursor := after, lastCause := some cause })

/-- The answer to a request, and the scanner after it. -/
def answer (limit : Nat) (scanner : Scanner) : Request → Except Fault (Option Token × Scanner)
  | .next => do
    let (token, after) ← next limit scanner
    .ok (some token, after)
  | .yield =>
    if scanner.finished then .ok (none, scanner)
    else do
      let (token, after) ← next limit scanner
      .ok (some token, { after with finished := token.isEndOfInput })

/-- The tokens that are handed out in answer to some requests, and the scanner after them. -/
def answers (limit : Nat) (scanner : Scanner) : List Request → Except Fault (List Token × Scanner)
  | [] => .ok ([], scanner)
  | request :: requests => do
    let (token, after) ← answer limit scanner request
    let (tokens, last) ← answers limit after requests
    .ok (token.toList ++ tokens, last)

/-- The scanner at the beginning of a source. -/
def start (limit : Nat) (source : ByteArray) : Except Fault Scanner := do
  let cursor ← advance limit ⟨source, none, 0, 0⟩
  .ok ⟨cursor, none, false⟩

/-- All that comes of some requests, from the beginning of a source on. -/
def run (limit : Nat) (source : ByteArray) (requests : List Request) :
    Except Fault (List Token × Scanner) := do
  let scanner ← start limit source
  answers limit scanner requests

section

variable {limit : Nat} {scanner : Scanner}

theorem next_eq (hlimit : scanner.source.size ≤ limit) (h : scanner.cursor.ReadAhead) :
    next limit scanner = .ok scanner.next := by
  have hskip : (scanner.cursor.skipWhile CharClass.isSpace).ReadAhead :=
    Cursor.readAhead_skipWhile h
  have hsource : (scanner.cursor.skipWhile CharClass.isSpace).source = scanner.source := by
    rw [Scanner.skipSpace_eq h, Cursor.source_moveTo, Scanner.source]
  rw [next, bind_of_eq_ok (skipWhile_eq hlimit _),
    bind_of_eq_ok (recognise_eq (hsource ▸ hlimit) hskip), Scanner.next]
  rcases (scanner.cursor.skipWhile CharClass.isSpace).recognise with ⟨token | cause, after⟩
  · rfl
  · rfl

theorem answer_eq (hlimit : scanner.source.size ≤ limit) (h : scanner.cursor.ReadAhead)
    (request : Request) : answer limit scanner request = .ok (scanner.answer request) := by
  cases request with
  | next => exact bind_of_eq_ok (next_eq hlimit h) _
  | yield =>
    rw [answer, Scanner.answer, Scanner.yield?]
    split
    · rfl
    · exact bind_of_eq_ok (next_eq hlimit h) _

theorem answers_eq (hlimit : scanner.source.size ≤ limit) (h : scanner.cursor.ReadAhead)
    (requests : List Request) : answers limit scanner requests =
      .ok (scanner.handedOut requests, scanner.through requests) := by
  induction requests generalizing scanner with
  | nil => rfl
  | cons request requests ih =>
    obtain ⟨hafter, hsource⟩ := Scanner.readAhead_answer h request
    rw [answers, bind_of_eq_ok (answer_eq hlimit h request)]
    dsimp only
    rw [bind_of_eq_ok (ih (hsource ▸ hlimit) hafter)]
    rfl

theorem start_eq {source : ByteArray} (hlimit : source.size ≤ limit) :
    start limit source = .ok (Scanner.start source) :=
  bind_of_eq_ok (advance_eq hlimit) _

/-- Where a word holds the length of the source, no check of a run fails. -/
theorem run_eq {source : ByteArray} (hlimit : source.size ≤ limit) (requests : List Request) :
    run limit source requests =
      .ok ((Scanner.start source).handedOut requests, (Scanner.start source).through requests) := by
  rw [run, bind_of_eq_ok (start_eq hlimit)]
  apply answers_eq _ (Scanner.readAhead_start source)
  rw [Scanner.source_start]
  exact hlimit

end

end Checked

namespace Scanner

/-- What holds after some requests have been made of a scanner at the beginning of a source. -/
structure Faultless (source : ByteArray) (requests : List Request) : Prop where
  primed : Cursor.Primed source ((start source).through requests).cursor
  /-- The last of the offsets at which the source is read is its length. -/
  last : (Utf8.offsets source).getLast? = some source.size
  /-- No check has failed on the way, and the checks have changed nothing. -/
  checked : ∀ limit, source.size ≤ limit → Checked.run limit source requests =
    .ok ((start source).handedOut requests, (start source).through requests)

/-- **Scanning is without a fault**: whatever requests are made, the scanner is primed,
and every condition, slice and sum on the way was as it has to be. The checked scanner is
compared with the scanner itself, operation by operation, so what is proved is not only
that no check fails but that leaving the checks out changes nothing. -/
theorem faultless (source : ByteArray) (requests : List Request) : Faultless source requests where
  primed := Reachable.primed ⟨requests, rfl⟩
  last := Utf8.getLast?_offsetsFrom (Nat.zero_le _)
  checked _ hlimit := Checked.run_eq hlimit requests

end Scanner

end ByteLexer
