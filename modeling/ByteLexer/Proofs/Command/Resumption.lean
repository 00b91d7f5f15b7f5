import Mathlib.Algebra.GroupWithZero.Nat
import ByteLexer.Proofs.Command.Emission
import ByteLexer.Proofs.Scan.Causes
import ByteLexer.Proofs.Scan.Requests

/-!
# Stopping loses nothing

An emission that stops at an error leaves a scanner on which another one goes on.
Emissions made like this, one after the other, come to the end of the source after
one more of them than there are errors, and taken together they are the emission
that skips errors: the same output, the same reports, the same counts, and the same
scanner in the end (`resumption_loses_nothing`).

The calls of a run are cut behind each error. What an emission takes is the calls up
to the first cut, and the calls behind it are those of the scanner that it leaves
(`calls_cases`), so that the pieces are the calls of the run (`calls_eq_flatMap`).
Everything that an emission comes to is a sum over its calls, and sums over the
pieces are the sum over the whole.

**What it does not establish.** The emissions differ in nothing but the policy. One that
writes in another format, or writes nothing, in between the others is not covered; that it
would count and report the same is `emit_congr`. The notice of a run that was stopped is
no part of an emission, so it is not among the reports that are compared.
-/

namespace ByteLexer

namespace Scanner

variable {scanner : Scanner}

/-- How many errors are handed out up to the end of the source. -/
def errorsAhead (scanner : Scanner) : Nat :=
  scanner.calls.countP Call.isError

/-! ## Calls up to an error -/

/-- A run has no errors, or it has a first one, behind which the calls are those of
the scanner that the error leaves. -/
theorem calls_cases (scanner : Scanner) :
    (∀ call ∈ scanner.calls, call.isError = false) ∨
    ∃ before call, scanner.calls = before ++ call :: call.after.calls ∧
      (∀ call ∈ before, call.isError = false) ∧ call.isError = true := by
  fun_induction calls scanner with
  | case1 scanner hend =>
    exact .inl (List.forall_mem_singleton.2 (Token.isError_of_isEndOfInput hend))
  | case2 scanner hend ih =>
    cases herror : scanner.call.isError with
    | true => exact .inr ⟨[], scanner.call, rfl, List.forall_mem_nil _, herror⟩
    | false =>
      obtain hnone | ⟨before, call, hcalls, hbefore, hcall⟩ := ih
      · exact .inl (List.forall_mem_cons.2 ⟨herror, hnone⟩)
      · refine .inr ⟨scanner.call :: before, call, ?_, ?_, hcall⟩
        · rw [hcalls, List.cons_append]
        · exact List.forall_mem_cons.2 ⟨herror, hbefore⟩

/-- Calls up to an error have no other. -/
theorem countP_isError_concat {before : List Call} {last : Call}
    (hbefore : ∀ call ∈ before, call.isError = false) (hlast : last.isError = true) :
    (before ++ [last]).countP Call.isError = 1 := by
  have hnone : before.countP Call.isError = 0 :=
    List.countP_eq_zero.2 fun call hcall => Bool.eq_false_iff.1 (hbefore call hcall)
  rw [List.countP_append, hnone, List.countP_singleton, if_pos hlast]

/-- The call with a number in the list is the call after so many others. -/
theorem eq_call_of_getElem? {i : Nat} {call : Call} (h : scanner.calls[i]? = some call) :
    call = (scanner.after i).call := by
  fun_induction calls scanner generalizing i with
  | case1 scanner _ =>
    cases i with
    | zero => exact (Option.some.inj h).symm
    | succ i => cases h
  | case2 scanner _ ih =>
    cases i with
    | zero => exact (Option.some.inj h).symm
    | succ i =>
      rw [List.getElem?_cons_succ] at h
      rw [after_succ]
      exact ih h

/-! ## One emission after the other -/

/-- The scanner that so many emissions leave, made on it one after the other, that
stop at errors. -/
def resumed (options : Options) (scanner : Scanner) : Nat → Scanner
  | 0 => scanner
  | n + 1 =>
    (emit { options with onError := .stop } (scanner.resumed options n) Sink.empty).scanner

/-- The emission that is made after so many others. -/
def resumption (options : Options) (scanner : Scanner) (n : Nat) : Emission :=
  emit { options with onError := .stop } (scanner.resumed options n) Sink.empty

/-- The calls that are made by the emission after so many others. -/
def piece (options : Options) (scanner : Scanner) (n : Nat) : List Call :=
  upToError (scanner.resumed options n).calls

/-- The emission after so many others takes the tokens that come next, and this one
is the last that it takes. -/
def EndsWith (options : Options) (scanner : Scanner) (n : Nat) (token : Token) : Prop :=
  ∃ k, (scanner.resumption options n).summary.tokens = k + 1 ∧
    (scanner.resumption options n).scanner = (scanner.resumed options n).after (k + 1) ∧
    (scanner.resumed options n).token k = token

section

variable {options : Options} {n : Nat}

theorem resumed_succ (options : Options) (scanner : Scanner) (n : Nat) :
    scanner.resumed options (n + 1) = (scanner.resumption options n).scanner :=
  rfl

/-! What an emission comes to is settled by the calls that it makes. -/

theorem tokens_resumption :
    (scanner.resumption options n).summary.tokens = (scanner.piece options n).length :=
  tokens_emit

theorem errors_resumption : (scanner.resumption options n).summary.errors =
    (scanner.piece options n).countP Call.isError :=
  errors_emit

theorem output_resumption : (scanner.resumption options n).sink.output =
    options.lines ((scanner.piece options n).map Call.token) :=
  output_emit.trans String.empty_append

theorem diagnostics_resumption : (scanner.resumption options n).sink.diagnostics.toList =
    ((scanner.piece options n).filterMap Call.cause?).map Cause.diagnostic :=
  diagnostics_emit

/-- What the last of its calls says of an emission. -/
theorem endsWith_of_piece {before : List Call} {last : Call} {behind : List Call}
    (hpiece : scanner.piece options n = before ++ [last])
    (hcalls : (scanner.resumed options n).calls = before ++ last :: behind) :
    (scanner.resumption options n).scanner = last.after ∧
      scanner.EndsWith options n last.token := by
  have hscanner : (scanner.resumption options n).scanner = last.after := scanner_emit hpiece
  have hlast : last = ((scanner.resumed options n).after before.length).call := by
    apply eq_call_of_getElem?
    rw [hcalls, List.getElem?_append_right (Nat.le_refl _), Nat.sub_self, List.getElem?_cons_zero]
  have htokens : (scanner.resumption options n).summary.tokens = before.length + 1 := by
    rw [tokens_resumption, hpiece, List.length_append, List.length_singleton]
  refine ⟨hscanner, before.length, htokens, ?_, ?_⟩
  · rw [hscanner, hlast]
    rfl
  · rw [hlast]
    rfl

/-- With an error ahead, an emission takes the calls up to it and leaves those behind it. -/
theorem exists_piece (options : Options) (scanner : Scanner) (n : Nat)
    (h : 0 < (scanner.resumed options n).errorsAhead) :
    ∃ before last, scanner.piece options n = before ++ [last] ∧
      (∀ call ∈ before, call.isError = false) ∧ last.isError = true ∧
      (scanner.resumption options n).scanner = last.after ∧
      scanner.EndsWith options n last.token ∧
      (scanner.resumed options n).calls =
        scanner.piece options n ++ (scanner.resumed options (n + 1)).calls := by
  rcases calls_cases (scanner.resumed options n) with
    hnone | ⟨before, last, hcalls, hbefore, hlast⟩
  · obtain ⟨call, hcall, herror⟩ := List.countP_pos_iff.1 h
    rw [hnone call hcall] at herror
    cases herror
  · have hpiece : scanner.piece options n = before ++ [last] := by
      rw [piece, hcalls]
      exact upToError_append hbefore hlast
    obtain ⟨hscanner, hends⟩ := endsWith_of_piece hpiece hcalls
    refine ⟨before, last, hpiece, hbefore, hlast, hscanner, hends, ?_⟩
    rw [resumed_succ, hscanner, hpiece, List.append_assoc, List.singleton_append]
    exact hcalls

/-- Each emission up to the last leaves one error less ahead. -/
theorem errorsAhead_resumed (options : Options) (h : n ≤ scanner.errorsAhead) :
    (scanner.resumed options n).errorsAhead + n = scanner.errorsAhead := by
  induction n with
  | zero => rfl
  | succ n ih =>
    -- fewer emissions than errors so far, so there is an error for the next one
    have hcount := ih (Nat.le_of_succ_le h)
    obtain ⟨before, last, hpiece, hbefore, hlast, -, -, hcalls⟩ :=
      exists_piece options scanner n (by omega)
    rw [errorsAhead, hcalls, List.countP_append, hpiece,
      countP_isError_concat hbefore hlast] at hcount
    rw [errorsAhead]
    omega

/-- The pieces so far, and then the calls that are left, are all calls. -/
theorem calls_eq_flatMap_append (options : Options) (h : n ≤ scanner.errorsAhead) :
    scanner.calls = (List.range n).flatMap (scanner.piece options) ++
      (scanner.resumed options n).calls := by
  induction n with
  | zero => rfl
  | succ n ih =>
    have hcount := errorsAhead_resumed options (Nat.le_of_succ_le h)
    obtain ⟨-, -, -, -, -, -, -, hcalls⟩ :=
      exists_piece options scanner n (by omega)
    rw [List.range_succ, List.flatMap_append, List.flatMap_singleton, List.append_assoc, ← hcalls]
    exact ih (Nat.le_of_succ_le h)

/-- Once as many emissions are made as there are errors, no error is left. -/
theorem isError_calls_resumed : ∀ call ∈ (scanner.resumed options scanner.errorsAhead).calls,
    call.isError = false := by
  have hcount := errorsAhead_resumed options (Nat.le_refl scanner.errorsAhead)
  have hzero : (scanner.resumed options scanner.errorsAhead).errorsAhead = 0 := by
    omega
  exact fun call hcall => Bool.eq_false_iff.2 (List.countP_eq_zero.1 hzero call hcall)

/-- **The pieces are the calls of the run.** There is one more of them than there are errors,
as each piece but the last ends with the one error in it, and the last ends with the source. -/
theorem calls_eq_flatMap (options : Options) (scanner : Scanner) :
    scanner.calls = (List.range (scanner.errorsAhead + 1)).flatMap (scanner.piece options) := by
  have hlast : scanner.piece options scanner.errorsAhead =
      (scanner.resumed options scanner.errorsAhead).calls :=
    upToError_eq_self isError_calls_resumed
  rw [List.range_succ, List.flatMap_append, List.flatMap_singleton, hlast]
  exact calls_eq_flatMap_append options (Nat.le_refl _)

end

/-! ## All emissions together -/

theorem join_lines (options : Options) (parts : List Nat) (tokens : Nat → List Token) :
    String.join (parts.map fun i => options.lines (tokens i)) =
      options.lines (parts.flatMap tokens) := by
  induction parts with
  | nil =>
    unfold Options.lines
    split <;> rfl
  | cons i parts ih =>
    rw [List.map_cons, String.join_cons, ih, List.flatMap_cons, Options.lines_append]

/-- What the emissions on a scanner that stop at errors come to, made one after the
other: `whole` is the one emission that skips errors. -/
structure LosesNothing (options : Options) (scanner : Scanner) (whole : Emission) : Prop where
  /-- As many emissions as there are errors end with an error. They are stopped early
  unless the error takes the source to its end. -/
  stopped : ∀ n < whole.summary.errors, ∃ token, scanner.EndsWith options n token ∧
    token.isError = true ∧ (scanner.resumption options n).summary.errors = 1 ∧
    ((scanner.resumption options n).summary.stoppedEarly = false ↔
      (scanner.resumption options n).scanner.offset = scanner.source.size)
  /-- The next one ends with the end of the source. -/
  last : ∃ token, scanner.EndsWith options whole.summary.errors token ∧
    token.isEndOfInput = true ∧
    (scanner.resumption options whole.summary.errors).summary.errors = 0 ∧
    (scanner.resumption options whole.summary.errors).summary.stoppedEarly = false
  output : String.join ((List.range (whole.summary.errors + 1)).map fun n =>
    (scanner.resumption options n).sink.output) = whole.sink.output
  diagnostics : (List.range (whole.summary.errors + 1)).flatMap (fun n =>
    (scanner.resumption options n).sink.diagnostics.toList) = whole.sink.diagnostics.toList
  tokens : ((List.range (whole.summary.errors + 1)).map fun n =>
    (scanner.resumption options n).summary.tokens).sum = whole.summary.tokens
  errors : ((List.range (whole.summary.errors + 1)).map fun n =>
    (scanner.resumption options n).summary.errors).sum = whole.summary.errors
  /-- The last emission leaves the scanner as the one that skips errors leaves it. -/
  scanner : (scanner.resumption options whole.summary.errors).scanner = whole.scanner

section

variable {options : Options} {n : Nat}

/-- An emission that was stopped at an error left bytes behind the error. -/
theorem stoppedEarly_resumption (h : scanner.cursor.ReadAhead) (hn : n < scanner.errorsAhead) :
    ∃ token, scanner.EndsWith options n token ∧ token.isError = true ∧
      (scanner.resumption options n).summary.errors = 1 ∧
      ((scanner.resumption options n).summary.stoppedEarly = false ↔
        (scanner.resumption options n).scanner.offset = scanner.source.size) := by
  have hcount := errorsAhead_resumed options (Nat.le_of_lt hn)
  obtain ⟨before, last, hpiece, hbefore, hlast, hscanner, hends, hcalls⟩ :=
    exists_piece options scanner n (by omega)
  have hearly : (scanner.resumption options n).summary.stoppedEarly =
      (last.isError && !last.after.isExhausted) := stoppedEarly_emit hpiece
  have hmem : last ∈ scanner.calls := by
    rw [calls_eq_flatMap_append options (Nat.le_of_lt hn), hcalls, hpiece]
    simp
  have hexhausted := isExhausted_of_mem_calls h hmem
  have hle : last.after.offset ≤ scanner.source.size := by
    obtain ⟨hafter, hsource⟩ := readAhead_of_mem_calls h hmem
    exact hsource ▸ hafter.position_le
  refine ⟨last.token, hends, hlast, ?_, ?_⟩
  · rw [errors_resumption, hpiece, countP_isError_concat hbefore hlast]
  · rw [hearly, hlast, hexhausted, hscanner]
    simp only [Bool.true_and, Bool.not_eq_false', decide_eq_true_eq]
    omega

/-- Once as many emissions are made as there are errors, the next one takes all calls
that are left. -/
theorem exists_last (options : Options) (scanner : Scanner) :
    ∃ before last,
      scanner.piece options scanner.errorsAhead = before ++ [last] ∧
      scanner.calls = ((List.range scanner.errorsAhead).flatMap
        (scanner.piece options) ++ before) ++ [last] ∧
      (scanner.resumption options scanner.errorsAhead).scanner = last.after ∧
      scanner.EndsWith options scanner.errorsAhead last.token ∧
      last.token.isEndOfInput = true := by
  obtain ⟨before, last, hcalls, hend⟩ :=
    (scanner.resumed options scanner.errorsAhead).exists_calls_eq_append
  have hpiece : scanner.piece options scanner.errorsAhead = before ++ [last] := by
    rw [← hcalls]
    exact upToError_eq_self isError_calls_resumed
  obtain ⟨hscanner, hends⟩ := endsWith_of_piece hpiece hcalls
  refine ⟨before, last, hpiece, ?_, hscanner, hends, hend⟩
  rw [List.append_assoc, ← hcalls]
  exact calls_eq_flatMap_append options (Nat.le_refl _)

/-- That one ends with the end of the source, without an error. -/
theorem last_resumption (options : Options) (scanner : Scanner) :
    ∃ token, scanner.EndsWith options scanner.errorsAhead token ∧ token.isEndOfInput = true ∧
      (scanner.resumption options scanner.errorsAhead).summary.errors = 0 ∧
      (scanner.resumption options scanner.errorsAhead).summary.stoppedEarly = false := by
  obtain ⟨before, last, hpiece, -, -, hends, hend⟩ := exists_last options scanner
  have hnone : (scanner.piece options scanner.errorsAhead).countP Call.isError = 0 := by
    rw [List.countP_eq_zero, piece, upToError_eq_self isError_calls_resumed]
    exact fun call hcall => Bool.eq_false_iff.1 (isError_calls_resumed call hcall)
  have hearly : (scanner.resumption options scanner.errorsAhead).summary.stoppedEarly =
      (last.isError && !last.after.isExhausted) := stoppedEarly_emit hpiece
  refine ⟨last.token, hends, hend, errors_resumption.trans hnone, ?_⟩
  rw [hearly, Call.isError, Token.isError_of_isEndOfInput hend]
  rfl

end

/-- **Stopping loses nothing.** From any scanner that is reached, emissions that stop at errors
come, one after the other, to all that the one that skips errors comes to. By
`calls_eq_flatMap` this is about lists of calls and sums over them. Only that an emission was
stopped early exactly when bytes are left needs a scanner that is reached, since the cursor
of any other may stand beyond its source. -/
theorem resumption_loses_nothing (options : Options) {source : ByteArray} {scanner : Scanner}
    (h : Reachable source scanner) :
    LosesNothing options scanner
      (emit { options with onError := .skip } scanner Sink.empty) := by
  have hcount : (emit { options with onError := .skip } scanner Sink.empty).summary.errors =
      scanner.errorsAhead := errors_emit
  have hcalls := calls_eq_flatMap options scanner
  constructor
  case stopped =>
    rw [hcount]
    exact fun n hn => stoppedEarly_resumption h.readAhead hn
  case last =>
    rw [hcount]
    exact last_resumption options scanner
  case output =>
    have hwhole : (emit { options with onError := .skip } scanner Sink.empty).sink.output =
        options.lines (scanner.calls.map Call.token) := output_emit.trans String.empty_append
    simp only [hcount, hwhole, output_resumption]
    rw [join_lines, ← List.map_flatMap, ← hcalls]
  case diagnostics =>
    have hwhole :
        (emit { options with onError := .skip } scanner Sink.empty).sink.diagnostics.toList =
          (scanner.calls.filterMap Call.cause?).map Cause.diagnostic := diagnostics_emit
    simp only [hcount, hwhole, diagnostics_resumption]
    rw [← List.map_flatMap, ← List.filterMap_flatMap, ← hcalls]
  case tokens =>
    have hwhole : (emit { options with onError := .skip } scanner Sink.empty).summary.tokens =
        scanner.calls.length := tokens_emit
    simp only [hcount, hwhole, tokens_resumption]
    rw [← List.length_flatMap, ← hcalls]
  case errors =>
    simp only [hcount, errors_resumption]
    exact List.countP_flatMap.symm.trans (congrArg _ hcalls.symm)
  case scanner =>
    obtain ⟨before, last, -, hmade, hscanner, -, -⟩ := exists_last options scanner
    have hwhole : (emit { options with onError := .skip } scanner Sink.empty).scanner =
        last.after := scanner_emit hmade
    rw [hcount, hwhole, hscanner]

/-- A scanner past the first name of a source. Ahead of it are a stray character, another
name, and a string that nothing closes. -/
def beforeStray : Scanner :=
  (start ⟨#[0x61, 0x20, 0x5E, 0x20, 0x63, 0x20, 0x22, 0x62]⟩).next.2

/-- Two errors are ahead, so three emissions are made. The second ends with an error as well,
but has not stopped early: the open string took the source to its end. -/
theorem resumption_loses_nothing_stray :
    Reachable ⟨#[0x61, 0x20, 0x5E, 0x20, 0x63, 0x20, 0x22, 0x62]⟩ beforeStray ∧
      LosesNothing ⟨none, .skip, .text, false, 0⟩ beforeStray
        (emit ⟨none, .skip, .text, false, 0⟩ beforeStray Sink.empty) ∧
      (emit ⟨none, .skip, .text, false, 0⟩ beforeStray Sink.empty).summary = ⟨4, 2, false⟩ ∧
      (List.range 3).map (fun n =>
          (beforeStray.resumption ⟨none, .skip, .text, false, 0⟩ n).summary) =
        [⟨1, 1, true⟩, ⟨2, 1, false⟩, ⟨1, 0, false⟩] ∧
      (List.range 3).map (fun n =>
          (beforeStray.resumption ⟨none, .skip, .text, false, 0⟩ n).sink) =
        [⟨"Token\x7bERROR, '', 2\x7d\n", #[(Cause.strayCharacter '^' 2).diagnostic]⟩,
          ⟨"Token\x7bIDENTIFIER, 'c', 4\x7d\n" ++ "Token\x7bERROR, '', 6\x7d\n",
            #[(Cause.unclosedQuote 6).diagnostic]⟩,
          ⟨"Token\x7bEOF, '', 8\x7d\n", #[]⟩] := by
  have hreachable : Reachable ⟨#[0x61, 0x20, 0x5E, 0x20, 0x63, 0x20, 0x22, 0x62]⟩ beforeStray :=
    ⟨[.next], rfl⟩
  exact ⟨hreachable, resumption_loses_nothing ⟨none, .skip, .text, false, 0⟩ hreachable,
    by decide +kernel, by decide +kernel, by decide +kernel⟩

end Scanner

end ByteLexer
