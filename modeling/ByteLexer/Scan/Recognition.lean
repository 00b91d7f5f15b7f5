import ByteLexer.Scan.Cause
import ByteLexer.Scan.CharClass
import ByteLexer.Scan.Cursor
import ByteLexer.Token.Basic
import ByteLexer.Utf8.Validation

/-!
# Recognising one token

`Cursor.recognise` takes a cursor that stands where a token starts, or at
the end, and gives the token, or the cause why there is none, with the
cursor after it. It always takes the longest run: an identifier or a number
ends where the class of its characters does. What starts no token is passed
over one character, or one malformed front, at a time.

A quoted string runs to the next quotation mark; there are no escapes. The
mark is sought as a byte, without reading the characters on the way, and
what lies between the marks is validated afterwards in one go. A string
without a closing mark takes the rest of the source.

Something is always taken, unless the cursor is at the end
(`remaining_recognise_lt`).
-/

namespace ByteLexer

namespace Cursor

/-- The token of this kind that is made of everything up to `after`. -/
def tokenTo (cursor after : Cursor) (kind : Kind) : Token :=
  ⟨kind, cursor.textBetween cursor.position after.position, cursor.position⟩

/-- The token of this kind that is made of the characters of a class that follow. -/
def recogniseRun (cursor : Cursor) (kind : Kind) (inClass : Char → Bool) : Token × Cursor :=
  let after := cursor.skipWhile inClass
  (cursor.tokenTo after kind, after)

/-- The quoted string that opens where the cursor stands. -/
def recogniseQuote (cursor : Cursor) : Except Cause Token × Cursor :=
  match cursor.source.findIdx? (· == CharClass.quoteByte) cursor.next with
  | none => (.error (.unclosedQuote cursor.position), cursor.moveTo cursor.source.size)
  | some close =>
    let after := cursor.moveTo (close + 1)
    let bytes := cursor.source.extract cursor.position after.position
    match Utf8.validate bytes with
    | .ok text => (.ok ⟨.quote, text, cursor.position⟩, after)
    | .error defect =>
      let length := defect.length.getD (bytes.size - defect.offset)
      (.error (.malformedBytes (cursor.position + defect.offset) length), after)

/-- The token that starts with the character `c`, where the cursor stands. -/
def recogniseFrom (cursor : Cursor) (c : Char) : Except Cause Token × Cursor :=
  match Kind.ofChar? c with
  | some kind =>
    let after := cursor.advance
    (.ok (cursor.tokenTo after kind), after)
  | none =>
    if CharClass.isIdentifierStart c then
      let (token, after) := cursor.recogniseRun .identifier CharClass.isIdentifierPart
      (.ok token, after)
    else if CharClass.isDigit c then
      let (token, after) := cursor.recogniseRun .number CharClass.isDigit
      (.ok token, after)
    else if c = CharClass.quoteMark then cursor.recogniseQuote
    else (.error (.strayCharacter c cursor.position), cursor.advance)

/-- The token that starts where the cursor stands. -/
def recognise (cursor : Cursor) : Except Cause Token × Cursor :=
  match cursor.current with
  | none => (.ok (.endOfInput cursor.next), cursor)
  | some .malformed =>
    (.error (.malformedBytes cursor.position (cursor.next - cursor.position)), cursor.advance)
  | some (.char c) => cursor.recogniseFrom c

/-- A byte found from `first` on is not before it. -/
theorem le_of_findIdx? {bytes : ByteArray} {p : UInt8 → Bool} {first found : Nat}
    (h : bytes.findIdx? p first = some found) : first ≤ found := by
  unfold ByteArray.findIdx? at h
  fun_induction ByteArray.findIdx?.loop bytes p first with
  | case1 => cases h; exact Nat.le_refl _
  | case2 _ _ _ ih => exact Nat.le_of_succ_le (ih h)
  | case3 => cases h

/-- A quoted string takes something. -/
theorem remaining_recogniseQuote_lt {cursor : Cursor} (h : cursor.current.isSome) :
    cursor.recogniseQuote.2.remaining < cursor.remaining := by
  unfold recogniseQuote
  split
  · obtain ⟨reading, hcurrent⟩ := Option.isSome_iff_exists.1 h
    simp [moveTo, Utf8.readAt, remaining, hcurrent]
  · rename_i close hclose
    have hnext : cursor.next ≤ close + 1 :=
      Nat.le_succ_of_le (le_of_findIdx? hclose)
    dsimp only
    split <;> exact remaining_moveTo_lt h hnext

/-- Whatever starts at a cursor that is not at the end takes something. -/
theorem remaining_recognise_lt {cursor : Cursor} (h : cursor.current.isSome) :
    cursor.recognise.2.remaining < cursor.remaining := by
  unfold recognise
  split
  · simp_all
  · exact remaining_advance_lt h
  · rename_i c hc
    have hc : cursor.character? = some c := by simp [character?, hc]
    unfold recogniseFrom
    split
    · exact remaining_advance_lt h
    · split
      · rename_i hstart
        exact remaining_skipWhile_lt (by simp [hc, CharClass.isIdentifierPart, hstart])
      · split
        · rename_i hdigit
          exact remaining_skipWhile_lt (by simp [hc, hdigit])
        · split
          · exact remaining_recogniseQuote_lt h
          · exact remaining_advance_lt h

end Cursor

end ByteLexer
