import ByteLexer.Command.Emission
import ByteLexer.Proofs.Scan.Calls

/-!
# An emission is a fold over calls

An emission takes in one call after the other (`Emission.takeIn`). Which calls
these are is for the policy to say (`ErrorPolicy.made`): all up to the end of the
source, or those up to the first error. How tokens are written has no say in it, so
`emitFrom_eq` separates the two: an emission is the fold of `takeIn` over the calls
that the policy makes.

What the fold counts, writes and reports is then said for any list of calls, by
induction on the list.

**What it takes as given.** A sink is a text and a list that grow, so nothing here says that
a write can fail or that a reader can go away. What the tokens are is not asked either: the
laws hold of any list of calls, and of any scanner, be it one that is reached or not.
-/

namespace ByteLexer

/-! ## The calls that are made -/

/-- The calls up to and including the first that hands out an error. -/
def upToError : List Call → List Call
  | [] => []
  | call :: calls => if call.isError then [call] else call :: upToError calls

/-- The calls that a policy makes of those that lead to the end of the source. -/
def ErrorPolicy.made : ErrorPolicy → List Call → List Call
  | skip, calls => calls
  | stop, calls => upToError calls

section

variable {policy : ErrorPolicy} {call : Call} {calls : List Call}

theorem upToError_cons_of_isError (h : call.isError = true) :
    upToError (call :: calls) = [call] :=
  if_pos h

theorem upToError_cons_of_not (h : call.isError = false) :
    upToError (call :: calls) = call :: upToError calls :=
  if_neg (Bool.eq_false_iff.1 h)

/-- Without an error, all calls are made. -/
theorem upToError_eq_self (h : ∀ call ∈ calls, call.isError = false) :
    upToError calls = calls := by
  induction calls with
  | nil => rfl
  | cons call calls ih =>
    obtain ⟨hcall, hcalls⟩ := List.forall_mem_cons.1 h
    rw [upToError_cons_of_not hcall, ih hcalls]

theorem filter_isError_eq_nil (h : ∀ call ∈ calls, call.isError = false) :
    calls.filter Call.isError = [] :=
  List.filter_eq_nil_iff.2 fun call hcall => Bool.eq_false_iff.1 (h call hcall)

theorem upToError_append {before behind : List Call}
    (hbefore : ∀ call ∈ before, call.isError = false) (hcall : call.isError = true) :
    upToError (before ++ call :: behind) = before ++ [call] := by
  induction before with
  | nil => exact upToError_cons_of_isError hcall
  | cons first before ih =>
    obtain ⟨hfirst, hbefore⟩ := List.forall_mem_cons.1 hbefore
    rw [List.cons_append, upToError_cons_of_not hfirst, ih hbefore, List.cons_append]

/-- A call is the last to be made if it hands out an error that is stopped at. -/
theorem ErrorPolicy.made_cons_cases (policy : ErrorPolicy) (call : Call) (calls : List Call) :
    (call.isError = true ∧ policy = .stop) ∧ policy.made (call :: calls) = [call] ∨
      (call.isError = false ∨ policy = .skip) ∧
        policy.made (call :: calls) = call :: policy.made calls := by
  cases policy with
  | skip => exact .inr ⟨.inr rfl, rfl⟩
  | stop =>
    cases herror : call.isError with
    | true => exact .inl ⟨⟨rfl, rfl⟩, upToError_cons_of_isError herror⟩
    | false => exact .inr ⟨.inl rfl, upToError_cons_of_not herror⟩

theorem ErrorPolicy.made_singleton : policy.made [call] = [call] := by
  cases policy with
  | skip => rfl
  | stop =>
    cases hcall : call.isError with
    | true => exact upToError_cons_of_isError hcall
    | false => exact upToError_cons_of_not hcall

end

/-! ## One call -/

/-- The line on which a token is written. -/
def TokenFormat.line : TokenFormat → Token → String
  | text, token => token.display ++ "\n"
  | json, token => token.json ++ "\n"

/-- What is written of some tokens. -/
def Options.lines (options : Options) (tokens : List Token) : String :=
  if options.quiet then "" else String.join (tokens.map options.format.line)

theorem Options.lines_append (options : Options) (first second : List Token) :
    options.lines (first ++ second) = options.lines first ++ options.lines second := by
  unfold lines
  split
  · rfl
  · rw [List.map_append, String.join_append]

namespace Sink

variable {sink : Sink} {options : Options} {token : Token} {cause : Option Cause}

theorem output_write :
    (sink.write options token).output = sink.output ++ options.lines [token] := by
  unfold write Options.lines
  split
  · exact String.append_empty.symm
  · cases options.format with
    | text => simp [TokenFormat.line, String.append_assoc]
    | json => simp [TokenFormat.line, String.append_assoc]

@[simp] theorem diagnostics_write : (sink.write options token).diagnostics = sink.diagnostics := by
  unfold write
  split <;> rfl

@[simp] theorem output_report : (sink.report cause).output = sink.output := by
  cases cause <;> rfl

theorem diagnostics_report : (sink.report cause).diagnostics.toList =
    sink.diagnostics.toList ++ cause.toList.map Cause.diagnostic := by
  cases cause with
  | none => exact (List.append_nil _).symm
  | some cause => exact Array.toList_push

end Sink

namespace Emission

/-- The emission once it has taken in another call. -/
def takeIn (options : Options) (emission : Emission) (call : Call) : Emission where
  summary :=
    { tokens := emission.summary.tokens + 1
      errors := emission.summary.errors + if call.isError then 1 else 0
      stoppedEarly := call.isError && !call.after.isExhausted }
  sink := (emission.sink.write options call.token).report call.cause?
  scanner := call.after

end Emission

theorem Token.isError_of_isEndOfInput {token : Token} (h : token.isEndOfInput = true) :
    token.isError = false := by
  have hkind : token.kind = .endOfInput := of_decide_eq_true h
  rw [isError, hkind]
  rfl

section

variable {options : Options} {tokens errors : Nat} {scanner : Scanner} {sink : Sink}

/-- The end of the source, and an error that is stopped at, end an emission. -/
theorem emitFrom_of_last (early : Bool)
    (h : scanner.next.1.isEndOfInput = true ∨
      scanner.next.1.isError = true ∧ options.onError = .stop) :
    emitFrom options tokens errors scanner sink =
      Emission.takeIn options ⟨⟨tokens, errors, early⟩, sink, scanner⟩ scanner.call := by
  rw [emitFrom]
  split
  rename_i token after hnext
  simp only [hnext, Emission.takeIn, Scanner.call, Call.cause?, Call.isError] at h ⊢
  by_cases hend : token.isEndOfInput = true
  · simp [hend, Token.isError_of_isEndOfInput hend, Sink.report]
  · obtain h | ⟨herror, hstop⟩ := h
    · exact absurd h hend
    · simp [hend, herror, hstop]

/-- After any other call it goes on, with what it has taken in by then. -/
theorem emitFrom_of_more (hopen : scanner.next.1.isEndOfInput = false)
    (h : scanner.next.1.isError = false ∨ options.onError = .skip) :
    emitFrom options tokens errors scanner sink =
      emitFrom options (tokens + 1) (errors + if scanner.call.isError then 1 else 0)
        scanner.next.2 ((sink.write options scanner.call.token).report scanner.call.cause?) := by
  conv => lhs; rw [emitFrom]
  split
  rename_i token after hnext
  simp only [hnext, Scanner.call, Call.cause?, Call.isError] at h hopen ⊢
  cases herror : token.isError with
  | false => simp [hopen, Sink.report]
  | true =>
    obtain h | hskip := h
    · rw [herror] at h
      cases h
    · simp [hopen, hskip]

end

/-- **An emission is the fold over the calls that its policy makes.** It goes on in three ways,
and the fold has one step for all of them, which can also undo what an earlier step said of
having stopped: so it does not matter what was said before the first. All else that is known
of an emission is read off the fold, and the recursion is not opened again. -/
theorem emitFrom_eq (options : Options) (tokens errors : Nat) (scanner : Scanner) (sink : Sink)
    (early : Bool) :
    emitFrom options tokens errors scanner sink =
      (options.onError.made scanner.calls).foldl (Emission.takeIn options)
        ⟨⟨tokens, errors, early⟩, sink, scanner⟩ := by
  fun_induction Scanner.calls scanner generalizing tokens errors sink early with
  | case1 scanner hend =>
    rw [ErrorPolicy.made_singleton, emitFrom_of_last early (.inl hend)]
    rfl
  | case2 scanner hend ih =>
    have hopen := Bool.eq_false_iff.2 hend
    obtain ⟨hstop, hmade⟩ | ⟨hmore, hmade⟩ :=
      options.onError.made_cons_cases scanner.call scanner.next.2.calls
    · -- the calls behind it are not made
      rw [hmade, emitFrom_of_last early (.inr hstop)]
      rfl
    · rw [hmade, emitFrom_of_more hopen hmore]
      exact ih _ _ _ _

/-! ## What the fold comes to -/

namespace Emission

variable {options : Options} {emission : Emission} {calls : List Call}

theorem tokens_foldl_takeIn :
    (calls.foldl (takeIn options) emission).summary.tokens =
      emission.summary.tokens + calls.length := by
  induction calls generalizing emission with
  | nil => rfl
  | cons call calls ih =>
    rw [List.foldl_cons, ih, List.length_cons, takeIn]
    dsimp only
    omega

theorem errors_foldl_takeIn :
    (calls.foldl (takeIn options) emission).summary.errors =
      emission.summary.errors + calls.countP Call.isError := by
  induction calls generalizing emission with
  | nil => rfl
  | cons call calls ih =>
    rw [List.foldl_cons, ih, List.countP_cons, takeIn]
    dsimp only
    omega

/-- The last call decides whether the emission was stopped. -/
theorem stoppedEarly_foldl_takeIn {call : Call} :
    ((calls ++ [call]).foldl (takeIn options) emission).summary.stoppedEarly =
      (call.isError && !call.after.isExhausted) := by
  rw [List.foldl_append]
  rfl

theorem scanner_foldl_takeIn {call : Call} :
    ((calls ++ [call]).foldl (takeIn options) emission).scanner = call.after := by
  rw [List.foldl_append]
  rfl

theorem output_foldl_takeIn :
    (calls.foldl (takeIn options) emission).sink.output =
      emission.sink.output ++ options.lines (calls.map Call.token) := by
  induction calls generalizing emission with
  | nil =>
    unfold Options.lines
    split <;> exact String.append_empty.symm
  | cons call calls ih =>
    rw [List.foldl_cons, ih, takeIn, Sink.output_report, Sink.output_write, String.append_assoc,
      ← Options.lines_append]
    rfl

theorem diagnostics_foldl_takeIn :
    (calls.foldl (takeIn options) emission).sink.diagnostics.toList =
      emission.sink.diagnostics.toList ++ (calls.filterMap Call.cause?).map Cause.diagnostic := by
  induction calls generalizing emission with
  | nil => exact (List.append_nil _).symm
  | cons call calls ih =>
    rw [List.foldl_cons, ih, takeIn, Sink.diagnostics_report, Sink.diagnostics_write,
      List.append_assoc, ← List.map_append]
    cases hcause : call.cause? with
    | none => rw [List.filterMap_cons_none hcause]; rfl
    | some cause => rw [List.filterMap_cons_some hcause]; rfl

end Emission

/-! ## What an emission comes to -/

section

variable {options : Options} {scanner : Scanner} {sink : Sink}

theorem emit_eq (options : Options) (scanner : Scanner) (sink : Sink) :
    emit options scanner sink = (options.onError.made scanner.calls).foldl
      (Emission.takeIn options) ⟨⟨0, 0, false⟩, sink, scanner⟩ :=
  emitFrom_eq options 0 0 scanner sink false

theorem tokens_emit : (emit options scanner sink).summary.tokens =
    (options.onError.made scanner.calls).length := by
  rw [emit_eq, Emission.tokens_foldl_takeIn, Nat.zero_add]

theorem errors_emit : (emit options scanner sink).summary.errors =
    (options.onError.made scanner.calls).countP Call.isError := by
  rw [emit_eq, Emission.errors_foldl_takeIn, Nat.zero_add]

theorem output_emit : (emit options scanner sink).sink.output =
    sink.output ++ options.lines ((options.onError.made scanner.calls).map Call.token) := by
  rw [emit_eq, Emission.output_foldl_takeIn]

theorem diagnostics_emit : (emit options scanner sink).sink.diagnostics.toList =
    sink.diagnostics.toList ++
      ((options.onError.made scanner.calls).filterMap Call.cause?).map Cause.diagnostic := by
  rw [emit_eq, Emission.diagnostics_foldl_takeIn]

section Last

variable {before : List Call} {last : Call}

theorem stoppedEarly_emit (h : options.onError.made scanner.calls = before ++ [last]) :
    (emit options scanner sink).summary.stoppedEarly =
      (last.isError && !last.after.isExhausted) := by
  rw [emit_eq, h, Emission.stoppedEarly_foldl_takeIn]

theorem scanner_emit (h : options.onError.made scanner.calls = before ++ [last]) :
    (emit options scanner sink).scanner = last.after := by
  rw [emit_eq, h, Emission.scanner_foldl_takeIn]

end Last

end

end ByteLexer
