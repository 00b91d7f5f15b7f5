import ByteLexer.Proofs.Scan.Lexing

/-!
# The calls of a run

A run of a scanner to the end of the source is a list of calls, each with the
token that it hands out and the scanner that it leaves. What a run comes to,
whoever drives it, is read off this list: the tokens of a source are those of
its calls (`tokenize_eq_map_calls`), and the calls of a scanner that has read
ahead hand out the tokens of the bytes that are left (`map_token_calls`).

The list ends with the first call that hands out the end of the source. Later
calls add nothing to it: they hand out the same token again
(`next_next_of_isEndOfInput`), so that a token handed out by any call at all is
one of the list (`token_mem_calls`).

**What it does not establish.** A call is known here by its token and by the scanner
that it leaves, and both are what the scanner makes of them; what they say about the
source is added by `ByteLexer.Proofs.Scan.Blame` and `ByteLexer.Proofs.Scan.Tiling`.
-/

namespace ByteLexer

/-- A call of a scanner: the token that it hands out, and the scanner after it. -/
structure Call where
  token : Token
  after : Scanner

/-- Whether the call hands out an error. -/
def Call.isError (call : Call) : Bool :=
  call.token.isError

/-- The cause that a call keeps, if it hands out an error. -/
def Call.cause? (call : Call) : Option Cause :=
  if call.isError then call.after.lastCause else none

namespace Scanner

/-- The next call of a scanner. -/
def call (scanner : Scanner) : Call :=
  ⟨scanner.next.1, scanner.next.2⟩

/-- The calls up to and including the first that hands out the end of the source.
The scanner goes on answering after that, but nothing new comes of it, so this is all
that there is to say of a run. -/
def calls (scanner : Scanner) : List Call :=
  if _h : scanner.next.1.isEndOfInput then [scanner.call]
  else scanner.call :: scanner.next.2.calls
termination_by scanner.cursor.remaining
decreasing_by exact remaining_next_lt (Bool.eq_false_iff.2 _h)

variable {scanner : Scanner}

theorem calls_of_isEndOfInput (h : scanner.next.1.isEndOfInput = true) :
    scanner.calls = [scanner.call] := by
  rw [calls, dif_pos h]

theorem calls_of_not_isEndOfInput (h : scanner.next.1.isEndOfInput = false) :
    scanner.calls = scanner.call :: scanner.next.2.calls := by
  rw [calls, dif_neg (Bool.eq_false_iff.1 h)]

/-- The last call of the list hands out the end of the source. -/
theorem exists_calls_eq_append (scanner : Scanner) :
    ∃ before last, scanner.calls = before ++ [last] ∧ last.token.isEndOfInput = true := by
  fun_induction calls scanner with
  | case1 scanner hend => exact ⟨[], scanner.call, rfl, hend⟩
  | case2 scanner hend ih =>
    obtain ⟨before, last, hcalls, hlast⟩ := ih
    exact ⟨scanner.call :: before, last, congrArg (scanner.call :: ·) hcalls, hlast⟩

/-! ## The tokens of a run -/

@[simp] theorem finished_next : scanner.next.2.finished = scanner.finished := by
  unfold next
  dsimp only
  split <;> rfl

theorem drainOnto_eq_calls (h : scanner.finished = false) (taken : Array Token) :
    (scanner.drainOnto taken).1.toList = taken.toList ++ scanner.calls.map Call.token := by
  fun_induction calls scanner generalizing taken with
  | case1 scanner hend =>
    rw [drainOnto_of_not_finished h, hend, drainOnto_of_finished rfl]
    exact Array.toList_push
  | case2 scanner hend ih =>
    -- marking the sequence as not finished changes nothing
    have hmark : { scanner.next.2 with finished := scanner.next.1.isEndOfInput } =
        scanner.next.2 := by
      rw [Bool.eq_false_iff.2 hend, ← h, ← finished_next]
    rw [drainOnto_of_not_finished h, hmark, ih (finished_next.trans h), Array.toList_push,
      List.append_assoc]
    rfl

/-- The tokens of a source are those of the calls of a scanner on it. -/
theorem tokenize_eq_map_calls (source : ByteArray) :
    tokenize source = (start source).calls.map Call.token :=
  drainOnto_eq_calls rfl #[]

/-- The end of the source is handed out where only spaces are left. -/
theorem isEndOfInput_next_iff (h : scanner.cursor.ReadAhead) :
    scanner.next.1.isEndOfInput = true ↔ scanner.rest.dropWhile ByteClass.isSpace = [] := by
  cases hrest : scanner.rest.dropWhile ByteClass.isSpace with
  | nil =>
    rw [next_eq_of_nil h hrest]
    exact iff_of_true rfl rfl
  | cons first more =>
    rw [next_eq_of_cons h hrest, isEndOfInput_lexeme]
    exact iff_of_false Bool.false_ne_true (List.cons_ne_nil _ _)

/-- A run hands out the tokens of the bytes that are left. -/
theorem map_token_calls (h : scanner.cursor.ReadAhead) :
    scanner.calls.map Call.token = lexFrom scanner.offset scanner.rest := by
  fun_induction calls scanner with
  | case1 scanner hend =>
    have hrest := (isEndOfInput_next_iff h).1 hend
    have hsize : scanner.offset + scanner.rest.length = scanner.source.size :=
      h.position_add_length
    rw [lexFrom_of_nil hrest, hsize, List.map_singleton, call, next_eq_of_nil h hrest]
  | case2 scanner hend ih =>
    have hne := mt (isEndOfInput_next_iff h).2 hend
    obtain ⟨first, more, hrest⟩ := List.exists_cons_of_ne_nil hne
    have hstart : scanner.offset + (scanner.rest.takeWhile ByteClass.isSpace).length =
        scanner.startOffset := rfl
    rw [lexFrom_of_cons hrest hstart, List.map_cons,
      ih (readAhead_next h), offset_next_of_cons h hrest, rest_next_of_cons h hrest, call,
      next_eq_of_cons h hrest]

theorem readAhead_start (source : ByteArray) : (start source).cursor.ReadAhead :=
  Cursor.readAhead_start source

@[simp] theorem source_start (source : ByteArray) : (start source).source = source :=
  Cursor.source_start source

@[simp] theorem offset_start (source : ByteArray) : (start source).offset = 0 :=
  Cursor.position_start source

@[simp] theorem rest_start (source : ByteArray) : (start source).rest = source.data.toList := by
  show bytesFrom (Cursor.start source).source (Cursor.start source).position = _
  rw [Cursor.source_start, Cursor.position_start]
  rfl

theorem map_token_calls_start (source : ByteArray) :
    (start source).calls.map Call.token = lexFrom 0 source.data.toList := by
  rw [map_token_calls (readAhead_start source), rest_start, offset_start]

/-! ## Calls by their number -/

/-- The calls after the first are those of the scanner that it leaves. -/
theorem after_succ (scanner : Scanner) (n : Nat) :
    scanner.after (n + 1) = scanner.next.2.after n := by
  induction n with
  | zero => rfl
  | succ n ih => exact congrArg (fun scanner => scanner.next.2) ih

theorem token_succ (scanner : Scanner) (n : Nat) :
    scanner.token (n + 1) = scanner.next.2.token n := by
  rw [token, after_succ, token]

/-- Every call of the list is the call after so many others. -/
theorem exists_eq_call_after {call : Call} (h : call ∈ scanner.calls) :
    ∃ n, call = (scanner.after n).call := by
  fun_induction calls scanner with
  | case1 scanner _ => exact ⟨0, List.mem_singleton.1 h⟩
  | case2 scanner _ ih =>
    obtain rfl | h := List.mem_cons.1 h
    · exact ⟨0, rfl⟩
    · obtain ⟨n, rfl⟩ := ih h
      exact ⟨n + 1, by rw [after_succ]⟩

/-- Once the end of the source has been handed out, it is handed out again. -/
theorem next_next_of_isEndOfInput (h : scanner.cursor.ReadAhead)
    (hend : scanner.next.1.isEndOfInput = true) : scanner.next.2.next.1 = scanner.next.1 := by
  have hrest := (isEndOfInput_next_iff h).1 hend
  have hnil : scanner.next.2.rest = [] := by
    rw [next_eq_of_nil h hrest]
    exact (Cursor.rest_moveTo _ _).trans (bytesFrom_of_le (Nat.le_refl _))
  rw [next_eq_of_nil (readAhead_next h) (by rw [hnil]; rfl), source_next h,
    next_eq_of_nil h hrest]

theorem token_mem_calls (h : scanner.cursor.ReadAhead) (n : Nat) :
    scanner.token n ∈ scanner.calls.map Call.token := by
  induction n generalizing scanner with
  | zero =>
    unfold calls
    split
    · exact List.mem_singleton.2 rfl
    · exact List.mem_cons_self
  | succ n ih =>
    have hlater := ih (readAhead_next h)
    rw [token_succ]
    cases hend : scanner.next.1.isEndOfInput with
    | true =>
      have hagain := next_next_of_isEndOfInput h hend
      rw [calls_of_isEndOfInput (hagain ▸ hend), List.map_singleton, call, hagain] at hlater
      rw [calls_of_isEndOfInput hend]
      exact hlater
    | false =>
      rw [calls_of_not_isEndOfInput hend]
      exact List.mem_cons_of_mem _ hlater

end Scanner

end ByteLexer
