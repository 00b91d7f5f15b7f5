import ByteLexer.Proofs.Scan.Blame
import ByteLexer.Proofs.Scan.Primed

/-!
# Quoted strings, character by character

A quoted string is scanned without decoding it: its closing mark is sought as a byte,
and what lies between is validated in one go. Here the same string is walked through,
one character or malformed front after the other, until a step reads a quotation mark
(`walkFrom`). The two agree on everything (`quote_agrees_with_walk`): on where the
string is closed, on whether it is valid and what its text is, and on the place and
the length of what is malformed in it.

No step of the walk takes the byte of a quotation mark, unless it reads the mark
(`not_quoteAt_of_readAt`), so the walk stops where the search does (`findIdx?_eq_close`).
Up to the first malformed front the bytes are the encodings of the characters walked
through (`take_eq_encodeAll`, `of_malformed?`), and validation says the same of them. As
it has the closing mark in view, it always knows the length of a defect
(`validate_of_not_begins`).

**What it does not establish.** The walk reads with the scanner's own reader
(`Utf8.readAt`), of which `readAt_exact` says what it does; here it is only that stepping
and searching agree. A string that is not closed is walked through to the end of the
source, but the scanner does not look at what is in it, and nothing is compared there.
-/

namespace ByteLexer

/-- The character that was read, if one was. -/
def Reading.character? : Reading → Option Char
  | .char c => some c
  | .malformed => none

/-- A walk up to a quotation mark: its steps, each with the offset at which it was read,
and the offset of the mark, if there was one. -/
structure Walk where
  steps : List (Nat × Utf8.Step)
  close : Option Nat
  deriving DecidableEq, Repr

namespace Walk

/-- The characters that the walk read. -/
def characters (walk : Walk) : List Char :=
  walk.steps.filterMap fun step => step.2.reading.character?

/-- The first malformed front that the walk passed over, with its offset. -/
def malformed? (walk : Walk) : Option (Nat × Utf8.Step) :=
  walk.steps.find? fun step => step.2.reading = .malformed

/-- The walk with one more step before it. -/
def cons (offset : Nat) (step : Utf8.Step) (walk : Walk) : Walk :=
  { walk with steps := (offset, step) :: walk.steps }

variable {walk : Walk} {offset width : Nat} {c : Char}

theorem characters_cons_char :
    (walk.cons offset ⟨.char c, width⟩).characters = c :: walk.characters :=
  rfl

theorem malformed?_cons_char : (walk.cons offset ⟨.char c, width⟩).malformed? = walk.malformed? :=
  rfl

theorem malformed?_cons_malformed :
    (walk.cons offset ⟨.malformed, width⟩).malformed? = some (offset, ⟨.malformed, width⟩) :=
  rfl

end Walk

/-- The walk from an offset on. This is the slow way to scan a string: every character is
read, and the search for the mark is the walk itself. -/
def walkFrom (source : ByteArray) (offset : Nat) : Walk :=
  match _h : Utf8.readAt source offset with
  | none => ⟨[], none⟩
  | some step =>
    if step.reading = .char CharClass.quoteMark then ⟨[], some offset⟩
    else (walkFrom source (offset + step.width)).cons offset step
termination_by source.size - offset
decreasing_by
  have := Utf8.lt_of_readAt _h
  have := Utf8.width_pos_of_readAt _h
  omega

section

variable {source : ByteArray} {offset start stop place close : Nat} {step : Utf8.Step} {c : Char}
  {cs : List Char}

/-! ## Where the walk ends -/

theorem quoteAt_iff_of_readAt (h : Utf8.readAt source offset = some step) :
    QuoteAt source offset ↔ step.reading = .char CharClass.quoteMark := by
  have hbytes := bytesFrom_of_lt (Utf8.lt_of_readAt h)
  rw [quoteAt_start_iff hbytes]
  constructor
  · intro hquote
    have hfront : String.utf8EncodeChar CharClass.quoteMark <+: bytesFrom source offset := by
      rw [hbytes, hquote, encode_quoteMark]
      exact List.prefix_append [_] _
    rw [Utf8.readAt_of_encode_prefix hfront, Option.some.injEq] at h
    rw [← h]
  · intro hreading
    rcases Utf8.readAt_cases h with ⟨c, hc, rfl⟩ | ⟨-, rfl⟩
    · cases hreading
      rw [encode_quoteMark, hbytes] at hc
      exact (List.cons_prefix_cons.1 hc).1.symm
    · cases hreading

/-- The byte of a quotation mark is no part of a step, but for the one that reads the mark. -/
theorem not_quoteAt_of_readAt (h : Utf8.readAt source offset = some step)
    (hother : step.reading ≠ .char CharClass.quoteMark) {i : Nat} (hle : offset ≤ i)
    (hlt : i < offset + step.width) : ¬QuoteAt source i := by
  intro hquote
  rcases Nat.lt_or_eq_of_le hle with hbefore | rfl
  · obtain ⟨hi, hbyte⟩ := Array.getElem?_eq_some_iff.1 hquote
    have hascii : source[i] < 0x80 := by
      rw [show source[i] = CharClass.quoteByte from hbyte]
      decide
    exact Nat.not_lt.2 (Utf8.add_width_le h hi hascii hbefore) hlt
  · exact hother ((quoteAt_iff_of_readAt h).1 hquote)

/-- A search for the mark may begin behind bytes that are none. -/
theorem findIdx?_add {n : Nat} (hle : offset + n ≤ source.size)
    (h : ∀ i, offset ≤ i → i < offset + n → ¬QuoteAt source i) :
    source.findIdx? (· == CharClass.quoteByte) offset =
      source.findIdx? (· == CharClass.quoteByte) (offset + n) := by
  induction n generalizing offset with
  | zero => rfl
  | succ n ih =>
    have hlt : offset < source.size := by omega
    have hnot := h offset (Nat.le_refl _) (by omega)
    rw [quoteAt_start_iff (bytesFrom_of_lt hlt)] at hnot
    rw [findIdx?_of_lt hlt, if_neg (mt eq_of_beq hnot), Nat.add_comm n, ← Nat.add_assoc]
    exact ih (by omega) fun i hi hi' => h i (by omega) (by omega)

/-- The search for the byte of the mark finds what the walk ends at. It may only jump because
a step that reads no mark has no byte of one in it: the later bytes of a character, and
those of a malformed front, are all above `7F`. -/
theorem findIdx?_eq_close (source : ByteArray) (offset : Nat) :
    source.findIdx? (· == CharClass.quoteByte) offset = (walkFrom source offset).close := by
  fun_induction walkFrom source offset with
  | case1 offset hnone =>
    have hend : source.size ≤ offset := by
      by_contra hlt
      obtain ⟨step, hstep⟩ := Utf8.exists_readAt (Nat.not_le.1 hlt)
      rw [hnone] at hstep
      cases hstep
    apply findIdx?_of_not_mem
    rw [bytesFrom_of_le hend]
    exact List.not_mem_nil
  | case2 offset step hstep hquote =>
    have hlt := Utf8.lt_of_readAt hstep
    have hbyte := (quoteAt_start_iff (bytesFrom_of_lt hlt)).1
      ((quoteAt_iff_of_readAt hstep).2 hquote)
    rw [findIdx?_of_lt hlt, if_pos (beq_iff_eq.2 hbyte)]
  | case3 offset step hstep hother ih =>
    rw [findIdx?_add (Utf8.add_width_le_size hstep)
      fun i hle hlt => not_quoteAt_of_readAt hstep hother hle hlt, ih]
    rfl

theorem le_close (h : (walkFrom source offset).close = some close) : offset ≤ close :=
  Cursor.le_of_findIdx? ((findIdx?_eq_close source offset).trans h)

theorem quoteAt_close (h : (walkFrom source offset).close = some close) : QuoteAt source close := by
  obtain ⟨hlt, hbyte⟩ := exists_of_findIdx? ((findIdx?_eq_close source offset).trans h)
  exact (quoteAt_start_iff (bytesFrom_of_lt hlt)).2 (eq_of_beq hbyte)

/-- No step that was walked through has the byte of a mark in it. -/
theorem not_quoteAt_of_mem_steps (h : (place, step) ∈ (walkFrom source offset).steps) {i : Nat}
    (hle : place ≤ i) (hlt : i < place + step.width) : ¬QuoteAt source i := by
  fun_induction walkFrom source offset with
  | case1 => cases h
  | case2 => cases h
  | case3 offset other hother hmark ih =>
    obtain heq | hlater := List.mem_cons.1 h
    · cases heq
      exact not_quoteAt_of_readAt hother hmark hle hlt
    · exact ih hlater

/-! ## What is walked through -/

/-- A character in front of the encodings of some others. -/
theorem take_eq_encodeAll_cons (hc : String.utf8EncodeChar c <+: bytesFrom source offset)
    (hle : offset + c.utf8Size ≤ stop)
    (hcs : (bytesFrom source (offset + c.utf8Size)).take (stop - (offset + c.utf8Size)) =
      Utf8.encodeAll cs) :
    (bytesFrom source offset).take (stop - offset) = Utf8.encodeAll (c :: cs) := by
  have hsplit : stop - offset = c.utf8Size + (stop - (offset + c.utf8Size)) := by omega
  rw [hsplit, List.take_add, drop_bytesFrom, hcs, ← String.length_utf8EncodeChar,
    ← List.prefix_iff_eq_take.1 hc, Utf8.encodeAll_cons]

/-- Where nothing is malformed, the bytes are the encodings of the characters. -/
theorem take_eq_encodeAll (hclose : (walkFrom source offset).close = some close)
    (hnone : (walkFrom source offset).malformed? = none) :
    (bytesFrom source offset).take (close - offset) =
      Utf8.encodeAll (walkFrom source offset).characters := by
  fun_induction walkFrom source offset with
  | case1 => cases hclose
  | case2 offset step hstep hquote =>
    cases hclose
    rw [Nat.sub_self, List.take_zero]
    rfl
  | case3 offset step hstep hother ih =>
    rcases Utf8.readAt_cases hstep with ⟨c, hc, rfl⟩ | ⟨-, rfl⟩
    · rw [Walk.malformed?_cons_char] at hnone
      rw [Walk.characters_cons_char]
      exact take_eq_encodeAll_cons hc (le_close hclose) (ih hclose hnone)
    · rw [Walk.malformed?_cons_malformed] at hnone
      cases hnone

/-- Otherwise they are encodings up to the first malformed front, which ends before the mark. -/
theorem of_malformed? (hclose : (walkFrom source offset).close = some close)
    (hmalformed : (walkFrom source offset).malformed? = some (place, step)) :
    offset ≤ place ∧ place + step.width ≤ close ∧ ¬Utf8.Begins (bytesFrom source place) ∧
      step.width = Utf8.malformedLength (bytesFrom source place) ∧
      ∃ cs, (bytesFrom source offset).take (place - offset) = Utf8.encodeAll cs := by
  fun_induction walkFrom source offset with
  | case1 => cases hclose
  | case2 => cases hmalformed
  | case3 offset other hother hmark ih =>
    have hle := le_close hclose
    rcases Utf8.readAt_cases hother with ⟨c, hc, rfl⟩ | ⟨hbegins, rfl⟩
    · rw [Walk.malformed?_cons_char] at hmalformed
      obtain ⟨hplace, hend, hbegins, hwidth, cs, hcs⟩ := ih hclose hmalformed
      exact ⟨by omega, hend, hbegins, hwidth, c :: cs, take_eq_encodeAll_cons hc hplace hcs⟩
    · rw [Walk.malformed?_cons_malformed] at hmalformed
      cases hmalformed
      refine ⟨Nat.le_refl _, hle, hbegins, rfl, [], ?_⟩
      rw [Nat.sub_self, List.take_zero]
      rfl

/-! ## Validation in one go -/

/-- Up to and with the closing mark, the bytes are those before it and the mark. -/
theorem take_add_one_of_quoteAt (hclose : QuoteAt source close) (hle : start ≤ close) :
    (bytesFrom source start).take (close + 1 - start) =
      (bytesFrom source start).take (close - start) ++ [CharClass.quoteByte] := by
  have hbyte : (bytesFrom source start)[close - start]? = some CharClass.quoteByte := by
    rw [bytesFrom, List.getElem?_drop, Nat.add_sub_cancel' hle, Array.getElem?_toList]
    exact hclose
  rw [Nat.sub_add_comm hle, List.take_add_one, hbyte]
  rfl

theorem validate_of_encodeAll (hclose : QuoteAt source close) (hle : start ≤ close)
    (hcs : (bytesFrom source start).take (close - start) = Utf8.encodeAll cs) :
    Utf8.validate (source.extract start (close + 1)) =
      .ok (String.ofList (cs ++ [CharClass.quoteMark])) := by
  have hbytes : (bytesFrom source start).take (close + 1 - start) =
      Utf8.encodeAll (cs ++ [CharClass.quoteMark]) := by
    rw [take_add_one_of_quoteAt hclose hle, hcs, Utf8.encodeAll_concat, encode_quoteMark]
  have hvalid : Utf8.undecoded (Utf8.encodeAll (cs ++ [CharClass.quoteMark])) = [] :=
    Utf8.isValidUTF8_iff_undecoded.1 (Utf8.isValidUTF8_iff.2 ⟨_, rfl⟩)
  rw [extract_eq, hbytes, Utf8.validate_eq, hvalid]
  dsimp only
  rw [Utf8.text_encodeAll]

/-- Before the closing mark a malformed front has a length, since it does not go on to
the end of what is validated. -/
theorem validate_of_not_begins (hclose : QuoteAt source close) (hle : start ≤ place)
    (hbegins : ¬Utf8.Begins (bytesFrom source place))
    (hend : place + Utf8.malformedLength (bytesFrom source place) ≤ close)
    (hcs : (bytesFrom source start).take (place - start) = Utf8.encodeAll cs) :
    Utf8.validate (source.extract start (close + 1)) =
      .error ⟨place - start, some (Utf8.malformedLength (bytesFrom source place))⟩ := by
  have hvalid : (source.extract start place).IsValidUTF8 := by
    rw [extract_eq, hcs]
    exact Utf8.isValidUTF8_iff.2 ⟨cs, rfl⟩
  have hpos := Utf8.malformedLength_pos (bytesFrom source place)
  obtain ⟨hlt, -⟩ := Array.getElem?_eq_some_iff.1 hclose
  have hsize : close < source.size := hlt
  have hleft : Utf8.undecoded ((bytesFrom source start).take (close + 1 - start)) =
      (bytesFrom source place).take (close + 1 - place) := by
    rw [undecoded_of_malformed hle (by omega) hbegins hvalid,
      show close + 1 - start - (place - start) = close + 1 - place by omega]
  have hlength : ((bytesFrom source start).take (close + 1 - start)).length -
      ((bytesFrom source place).take (close + 1 - place)).length = place - start := by
    rw [List.length_take, List.length_take, length_bytesFrom, length_bytesFrom]
    omega
  have hne : (bytesFrom source place).take (close + 1 - place) ≠ [] := by
    rw [← List.length_pos_iff, List.length_take, length_bytesFrom]
    omega
  have hfront : ¬Utf8.IsFront ((bytesFrom source place).take (close + 1 - place)) := by
    rw [← hleft, take_add_one_of_quoteAt hclose (by omega)] at hne ⊢
    exact (Utf8.undecoded_append_singleton (by decide) hne).1
  rw [extract_eq, Utf8.validate_of_ne_nil hleft hne, hlength, if_neg hfront,
    Utf8.malformedLength_take (by omega)]

end

namespace Cursor

variable {cursor : Cursor} {close place : Nat} {step : Utf8.Step}

/-! ## Quoted strings -/

/-- Where a quotation mark has been read its encoding stands, and the string goes on behind it. -/
theorem ReadAhead.of_quoteMark (h : cursor.ReadAhead)
    (hquote : cursor.current = some (.char CharClass.quoteMark)) :
    String.utf8EncodeChar CharClass.quoteMark <+: bytesFrom cursor.source cursor.position ∧
      cursor.next = cursor.position + CharClass.quoteMark.utf8Size := by
  rcases h.cases with ⟨hnone, -⟩ | ⟨step, hstep, hcurrent, hnext, -⟩
  · rw [hnone] at hquote
    cases hquote
  · rw [hquote, Option.some.injEq] at hcurrent
    rcases Utf8.readAt_cases hstep with ⟨c, hc, rfl⟩ | ⟨-, rfl⟩
    · cases hcurrent
      exact ⟨hc, hnext⟩
    · cases hcurrent

theorem recognise_of_quoteMark (hquote : cursor.current = some (.char CharClass.quoteMark)) :
    cursor.recognise = cursor.recogniseQuote := by
  rw [recognise, hquote]
  rfl

theorem recogniseQuote_of_unclosed (hclose : (walkFrom cursor.source cursor.next).close = none) :
    cursor.recogniseQuote =
      (.error (.unclosedQuote cursor.position), cursor.moveTo cursor.source.size) := by
  rw [recogniseQuote, findIdx?_eq_close, hclose]

section

variable (h : cursor.ReadAhead) (hquote : cursor.current = some (.char CharClass.quoteMark))
  (hclose : (walkFrom cursor.source cursor.next).close = some close)

include hclose

theorem position_moveTo_close : (cursor.moveTo (close + 1)).position = close + 1 := by
  obtain ⟨hlt, -⟩ := Array.getElem?_eq_some_iff.1 (quoteAt_close hclose)
  rw [position_moveTo]
  exact Nat.min_eq_left hlt

/-- A closed string that is valid is a token. -/
theorem recogniseQuote_of_ok {text : String} (hvalidate :
    Utf8.validate (cursor.source.extract cursor.position (close + 1)) = .ok text) :
    cursor.recogniseQuote = (.ok ⟨.quote, text, cursor.position⟩, cursor.moveTo (close + 1)) := by
  rw [recogniseQuote, findIdx?_eq_close, hclose]
  dsimp only
  rw [position_moveTo_close hclose, hvalidate]

/-- One with a defect that has a length is an error with these bytes to blame. -/
theorem recogniseQuote_of_error {offset width : Nat} (hvalidate :
    Utf8.validate (cursor.source.extract cursor.position (close + 1)) =
      .error ⟨offset, some width⟩) : cursor.recogniseQuote =
      (.error (.malformedBytes (cursor.position + offset) width), cursor.moveTo (close + 1)) := by
  rw [recogniseQuote, findIdx?_eq_close, hclose]
  dsimp only
  rw [position_moveTo_close hclose, hvalidate]
  rfl

include h hquote

theorem validate_of_valid (hnone : (walkFrom cursor.source cursor.next).malformed? = none) :
    Utf8.validate (cursor.source.extract cursor.position (close + 1)) =
      .ok (String.ofList (CharClass.quoteMark ::
        (walkFrom cursor.source cursor.next).characters ++ [CharClass.quoteMark])) := by
  obtain ⟨hopen, hnext⟩ := h.of_quoteMark hquote
  have hle := le_close hclose
  have hcs := take_eq_encodeAll hclose hnone
  rw [hnext] at hle hcs ⊢
  exact validate_of_encodeAll (quoteAt_close hclose) (Nat.le_trans (Nat.le_add_right _ _) hle)
    (take_eq_encodeAll_cons hopen hle hcs)

theorem validate_of_malformed
    (hmalformed : (walkFrom cursor.source cursor.next).malformed? = some (place, step)) :
    Utf8.validate (cursor.source.extract cursor.position (close + 1)) =
      .error ⟨place - cursor.position, some step.width⟩ := by
  obtain ⟨hopen, hnext⟩ := h.of_quoteMark hquote
  obtain ⟨hle, hend, hbegins, hwidth, cs, hcs⟩ := of_malformed? hclose hmalformed
  rw [hnext] at hle hcs
  rw [hwidth] at hend ⊢
  exact validate_of_not_begins (quoteAt_close hclose) (Nat.le_trans (Nat.le_add_right _ _) hle)
    hbegins hend (take_eq_encodeAll_cons hopen hle hcs)

end

end Cursor

namespace Scanner

/-- What it is for the next token of a scanner, a quoted string that opens where the
cursor stands, to agree with the walk from behind the opening mark. -/
structure AgreesWithWalk (scanner : Scanner) (cursor : Cursor) (walk : Walk) : Prop where
  /-- The rule for quoted strings is the one that applies. -/
  rule : cursor.recognise = cursor.recogniseQuote
  /-- The search for the closing mark as a byte finds what the walk ends at. -/
  search : cursor.source.findIdx? (· == CharClass.quoteByte) cursor.next = walk.close
  /-- No step on the way has the byte of a mark in it. -/
  apart : ∀ place step, (place, step) ∈ walk.steps →
    ∀ i, place ≤ i → i < place + step.width → ¬QuoteAt cursor.source i
  unclosed : walk.close = none → scanner.next = (.error cursor.position,
    { scanner with
      cursor := cursor.moveTo cursor.source.size
      lastCause := some (.unclosedQuote cursor.position) })
  /-- Where no step is malformed, the text is that of the characters, with the marks. -/
  valid : ∀ close, walk.close = some close → walk.malformed? = none → scanner.next =
    (⟨.quote, String.ofList (CharClass.quoteMark :: walk.characters ++ [CharClass.quoteMark]),
      cursor.position⟩, { scanner with cursor := cursor.moveTo (close + 1) })
  /-- Otherwise the first malformed step is what is blamed. -/
  malformed : ∀ close place step, walk.close = some close →
    walk.malformed? = some (place, step) → scanner.next = (.error cursor.position,
      { scanner with
        cursor := cursor.moveTo (close + 1)
        lastCause := some (.malformedBytes place step.width) })
  /-- The token is a string exactly when the string is closed and no step is malformed. -/
  kind_iff : scanner.next.1.kind = .quote ↔ walk.close.isSome ∧ walk.malformed? = none
  /-- A defect that validation reports has a length, so that none is put in its place. -/
  length : ∀ close defect, walk.close = some close →
    Utf8.validate (cursor.source.extract cursor.position (close + 1)) = .error defect →
      defect.length.isSome

section

variable {scanner : Scanner} {cursor after : Cursor} {close place : Nat} {step : Utf8.Step}
  (hcursor : scanner.cursor.skipWhile CharClass.isSpace = cursor)

include hcursor

theorem next_of_recognise_ok {token : Token} (hresult : cursor.recognise = (.ok token, after)) :
    scanner.next = (token, { scanner with cursor := after }) := by
  rw [next, hcursor, hresult]

theorem next_of_recognise_error {cause : Cause}
    (hresult : cursor.recognise = (.error cause, after)) : scanner.next =
      (.error cursor.position, { scanner with cursor := after, lastCause := some cause }) := by
  rw [next, hcursor, hresult]

variable (hquote : cursor.current = some (.char CharClass.quoteMark))

include hquote

theorem next_of_unclosed (hclose : (walkFrom cursor.source cursor.next).close = none) :
    scanner.next = (.error cursor.position,
      { scanner with
        cursor := cursor.moveTo cursor.source.size
        lastCause := some (.unclosedQuote cursor.position) }) := by
  apply next_of_recognise_error hcursor
  rw [Cursor.recognise_of_quoteMark hquote, Cursor.recogniseQuote_of_unclosed hclose]

variable (h : cursor.ReadAhead) (hclose : (walkFrom cursor.source cursor.next).close = some close)

include h hclose

theorem next_of_valid (hnone : (walkFrom cursor.source cursor.next).malformed? = none) :
    scanner.next = (⟨.quote, String.ofList (CharClass.quoteMark ::
        (walkFrom cursor.source cursor.next).characters ++ [CharClass.quoteMark]),
      cursor.position⟩, { scanner with cursor := cursor.moveTo (close + 1) }) := by
  apply next_of_recognise_ok hcursor
  rw [Cursor.recognise_of_quoteMark hquote]
  exact Cursor.recogniseQuote_of_ok hclose (Cursor.validate_of_valid h hquote hclose hnone)

theorem next_of_malformed
    (hmalformed : (walkFrom cursor.source cursor.next).malformed? = some (place, step)) :
    scanner.next = (.error cursor.position,
      { scanner with
        cursor := cursor.moveTo (close + 1)
        lastCause := some (.malformedBytes place step.width) }) := by
  have hle := Nat.le_trans h.position_le_next (of_malformed? hclose hmalformed).1
  have hresult := Cursor.recogniseQuote_of_error hclose
    (Cursor.validate_of_malformed h hquote hclose hmalformed)
  rw [Nat.add_sub_cancel' hle] at hresult
  apply next_of_recognise_error hcursor
  rw [Cursor.recognise_of_quoteMark hquote, hresult]

end

theorem agreesWithWalk {scanner : Scanner} {cursor : Cursor}
    (hcursor : scanner.cursor.skipWhile CharClass.isSpace = cursor) (h : cursor.ReadAhead)
    (hquote : cursor.current = some (.char CharClass.quoteMark)) :
    AgreesWithWalk scanner cursor (walkFrom cursor.source cursor.next) where
  rule := Cursor.recognise_of_quoteMark hquote
  search := findIdx?_eq_close cursor.source cursor.next
  apart _ _ hstep _ hle hlt := not_quoteAt_of_mem_steps hstep hle hlt
  unclosed hclose := next_of_unclosed hcursor hquote hclose
  valid _ hclose hnone := next_of_valid hcursor hquote h hclose hnone
  malformed _ _ _ hclose hmalformed := next_of_malformed hcursor hquote h hclose hmalformed
  kind_iff := by
    cases hclose : (walkFrom cursor.source cursor.next).close with
    | none =>
      rw [next_of_unclosed hcursor hquote hclose]
      simp [Token.error]
    | some close =>
      cases hmalformed : (walkFrom cursor.source cursor.next).malformed? with
      | none =>
        rw [next_of_valid hcursor hquote h hclose hmalformed]
        simp
      | some first =>
        rw [next_of_malformed hcursor hquote h hclose hmalformed]
        simp [Token.error]
  length := by
    intro close defect hclose hdefect
    cases hmalformed : (walkFrom cursor.source cursor.next).malformed? with
    | none =>
      rw [Cursor.validate_of_valid h hquote hclose hmalformed] at hdefect
      cases hdefect
    | some first =>
      rw [Cursor.validate_of_malformed h hquote hclose hmalformed] at hdefect
      cases hdefect
      rfl

/-- **Quoted strings are scanned as a walk would scan them**: wherever a quoted string
opens, searching for its end and validating it in one go comes to the same as walking
through it. That is so for every scanner that requests lead to and whatever stands between
the marks, be it that the closing mark cuts a character short. -/
theorem quote_agrees_with_walk {source : ByteArray} {scanner : Scanner}
    (h : Reachable source scanner)
    (hquote : (scanner.cursor.skipWhile CharClass.isSpace).current =
      some (.char CharClass.quoteMark)) :
    AgreesWithWalk scanner (scanner.cursor.skipWhile CharClass.isSpace)
      (walkFrom source (scanner.cursor.skipWhile CharClass.isSpace).next) := by
  have hsource : (scanner.cursor.skipWhile CharClass.isSpace).source = source := by
    rw [skipSpace_eq h.readAhead, Cursor.source_moveTo]
    exact h.source_eq
  have hagrees := agreesWithWalk rfl (Cursor.readAhead_skipWhile h.readAhead) hquote
  rw [hsource] at hagrees
  exact hagrees

/-- A name, and a string in which the closing mark cuts a character of four bytes short.
The byte behind the mark would go on with the character. -/
def cutByMark : ByteArray :=
  ⟨#[0x61, 0x20, 0x22, 0x62, 0xF0, 0x9F, 0x22, 0x80]⟩

/-- The two bytes before the mark are one step of the walk, and are what is blamed. -/
theorem quote_agrees_with_walk_cut :
    Reachable cutByMark ((start cutByMark).through [.next]) ∧
    (((start cutByMark).through [.next]).cursor.skipWhile CharClass.isSpace).current =
      some (.char CharClass.quoteMark) ∧
    walkFrom cutByMark 3 = ⟨[(3, ⟨.char 'b', 1⟩), (4, ⟨.malformed, 2⟩)], some 6⟩ ∧
    AgreesWithWalk ((start cutByMark).through [.next])
      (((start cutByMark).through [.next]).cursor.skipWhile CharClass.isSpace)
      ⟨[(3, ⟨.char 'b', 1⟩), (4, ⟨.malformed, 2⟩)], some 6⟩ := by
  have hreachable : Reachable cutByMark ((start cutByMark).through [.next]) := ⟨[.next], rfl⟩
  have hquote : (((start cutByMark).through [.next]).cursor.skipWhile
      CharClass.isSpace).current = some (.char CharClass.quoteMark) := by decide +kernel
  have hnext : (((start cutByMark).through [.next]).cursor.skipWhile CharClass.isSpace).next =
      3 := by decide +kernel
  have hwalk : walkFrom cutByMark 3 =
      ⟨[(3, ⟨.char 'b', 1⟩), (4, ⟨.malformed, 2⟩)], some 6⟩ := by decide +kernel
  have hagrees := quote_agrees_with_walk hreachable hquote
  rw [hnext, hwalk] at hagrees
  exact ⟨hreachable, hquote, hwalk, hagrees⟩

end Scanner

end ByteLexer
