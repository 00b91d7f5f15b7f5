import ByteLexer.Scan.Recognition

/-!
# Scanners

A scanner hands out the tokens of a source one after the other. It never
stops at an error: a place that cannot be scanned is an error token, and
scanning goes on behind it. The token says only where; the cause is kept in
`lastCause` until the next error replaces it.

`next` can be asked for ever, and answers with the end of the source from
there on. `yield?` is the view of a scanner as a sequence that ends: it
hands out the end of the source once and nothing after it. The two can be
mixed, and only `yield?` marks the sequence as finished.

All loops over a scanner end because each token but the last lessens what
the cursor has left (`remaining_next_lt`).
-/

namespace ByteLexer

/-- A source with a place in it, and what there is to know about the errors so far. -/
structure Scanner where
  cursor : Cursor
  /-- The cause of the most recent error token. -/
  lastCause : Option Cause
  /-- Whether `yield?` has handed out the end of the source. -/
  finished : Bool

namespace Scanner

/-- The scanner at the beginning of a source. -/
def start (source : ByteArray) : Scanner :=
  ⟨.start source, none, false⟩

/-- The source being scanned. -/
def source (scanner : Scanner) : ByteArray :=
  scanner.cursor.source

/-- The offset at or after which the next token starts. -/
def offset (scanner : Scanner) : Nat :=
  scanner.cursor.position

/-- Whether every byte of the source has been taken. -/
def isExhausted (scanner : Scanner) : Bool :=
  scanner.cursor.isExhausted

/-- The next token, and the scanner after it. -/
def next (scanner : Scanner) : Token × Scanner :=
  let cursor := scanner.cursor.skipWhile CharClass.isSpace
  match cursor.recognise with
  | (.ok token, after) => (token, { scanner with cursor := after })
  | (.error cause, after) =>
    (.error cursor.position, { scanner with cursor := after, lastCause := some cause })

/-- The next token of the sequence, unless it has ended. -/
def yield? (scanner : Scanner) : Option Token × Scanner :=
  if scanner.finished then (none, scanner)
  else
    let (token, after) := scanner.next
    (some token, { after with finished := token.isEndOfInput })

/-- A token that is not the end of the source lessens what is left. -/
theorem remaining_next_lt {scanner : Scanner} (h : scanner.next.1.isEndOfInput = false) :
    scanner.next.2.cursor.remaining < scanner.cursor.remaining := by
  have hskip := scanner.cursor.remaining_skipWhile_le CharClass.isSpace
  have hnext : scanner.next.2.cursor =
      (scanner.cursor.skipWhile CharClass.isSpace).recognise.2 := by
    unfold next
    dsimp only
    split <;> simp_all
  cases hcurrent : (scanner.cursor.skipWhile CharClass.isSpace).current with
  | none =>
    simp [next, Cursor.recognise, hcurrent, Token.isEndOfInput, Token.endOfInput] at h
  | some reading =>
    rw [hnext]
    exact Nat.lt_of_lt_of_le (Cursor.remaining_recognise_lt (by simp [hcurrent])) hskip

/-- A bound on how many tokens the sequence still has. -/
def pending (scanner : Scanner) : Nat :=
  if scanner.finished then 0 else scanner.cursor.remaining + 1

/-- Every token handed out lessens how many there are. -/
theorem pending_yield?_lt {scanner : Scanner} (h : scanner.yield?.1.isSome) :
    scanner.yield?.2.pending < scanner.pending := by
  unfold yield? at h ⊢
  split
  · simp_all
  · rename_i hfinished
    simp only [pending, hfinished]
    cases hend : scanner.next.1.isEndOfInput with
    | true => simp
    | false => simpa using remaining_next_lt hend

/-- The rest of the sequence after the tokens already `taken`. -/
def drainOnto (scanner : Scanner) (taken : Array Token) : Array Token × Scanner :=
  match _h : scanner.yield? with
  | (some token, after) => drainOnto after (taken.push token)
  | (none, after) => (taken, after)
termination_by scanner.pending
decreasing_by
  have hsome : scanner.yield?.1.isSome := by simp [_h]
  simpa [_h] using pending_yield?_lt hsome

/-- The rest of the sequence, and the scanner at its end. -/
def drain (scanner : Scanner) : List Token × Scanner :=
  let (tokens, after) := scanner.drainOnto #[]
  (tokens.toList, after)

end Scanner

/-- All tokens of a source, the end of the source included. -/
def tokenize (source : ByteArray) : List Token :=
  (Scanner.start source).drain.1

end ByteLexer
