import ByteLexer.Proofs.Command.Resumption
import ByteLexer.Proofs.Scan.Tiling

/-!
# An emission accounts for what it takes

An emission takes the tokens that come next, from whatever scanner it is given, and
stops with the end of the source or with an error that is stopped at. What it counts
and collects is said here of these tokens, by their numbers, and no longer of a list
of calls (`emit_accounts`).

A policy makes the first of the calls of a run (`made_prefix`), and the first of them are
those after `0`, `1`, `2` others (`eq_map_of_prefix`), so the calls that an emission makes
are known by how many they are. The scanner has one place for a cause. It is read behind
each error, before the next call can replace it, and this is why the causes collected are
those of the errors, one for each and in the same order (`forall₂_errorsAmong`).

**What it does not establish.** The numbers count calls, and what the calls hand out is said
in other modules. A scanner that is reached stands at the end of its source at the furthest.
Of others nothing is said, and the bound on the tokens is false of one beyond the end.
-/

namespace ByteLexer

/-! ## The calls that are made, by their numbers -/

/-- A policy makes the first of the calls. -/
theorem ErrorPolicy.made_prefix (policy : ErrorPolicy) (calls : List Call) :
    policy.made calls <+: calls := by
  cases policy with
  | skip => exact List.prefix_rfl
  | stop =>
    show upToError calls <+: calls
    induction calls with
    | nil => exact List.prefix_rfl
    | cons call calls ih =>
      cases herror : call.isError with
      | true =>
        rw [upToError_cons_of_isError herror]
        exact List.prefix_append [call] calls
      | false =>
        rw [upToError_cons_of_not herror]
        exact List.cons_prefix_cons.2 ⟨rfl, ih⟩

namespace Scanner

variable {scanner : Scanner}

/-- The next tokens, as many as are asked for. -/
def upcoming (scanner : Scanner) (n : Nat) : List Token :=
  (List.range n).map scanner.token

/-- The numbers of the errors among the next tokens. -/
def errorsAmong (scanner : Scanner) (n : Nat) : List Nat :=
  (List.range n).filter fun i => (scanner.token i).isError

/-- The first of the calls are those after `0`, `1`, `2` others. -/
theorem eq_map_of_prefix {calls : List Call} (h : calls <+: scanner.calls) :
    calls = (List.range calls.length).map fun i => (scanner.after i).call := by
  apply List.ext_getElem (by rw [List.length_map, List.length_range])
  intro i hi _
  rw [List.getElem_map, List.getElem_range]
  exact eq_call_of_getElem? (h.getElem hi ▸ List.getElem?_eq_getElem _)

theorem made_eq_map (policy : ErrorPolicy) (scanner : Scanner) :
    policy.made scanner.calls =
      (List.range (policy.made scanner.calls).length).map fun i => (scanner.after i).call :=
  eq_map_of_prefix (policy.made_prefix scanner.calls)

/-- The calls that a policy makes hand out the next tokens. -/
theorem map_token_made (policy : ErrorPolicy) (scanner : Scanner) :
    (policy.made scanner.calls).map Call.token =
      scanner.upcoming (policy.made scanner.calls).length := by
  conv => lhs; rw [made_eq_map policy scanner]
  rw [List.map_map]
  rfl

/-- The last call that a policy makes hands out the end of the source or an error that is
stopped at, and the others do not. The induction is that of the calls: a policy makes the
first, and of those behind it, if it goes on, what it would make of them alone. -/
theorem exists_made_eq_append (policy : ErrorPolicy) (scanner : Scanner) :
    ∃ before last, policy.made scanner.calls = before ++ [last] ∧
      (∀ call ∈ before, call.token.isEndOfInput = false ∧
        (call.isError = false ∨ policy = .skip)) ∧
      (last.token.isEndOfInput = true ∨ last.isError = true ∧ policy = .stop) := by
  fun_induction calls scanner with
  | case1 scanner hend =>
    rw [ErrorPolicy.made_singleton]
    exact ⟨[], scanner.call, rfl, List.forall_mem_nil _, .inl hend⟩
  | case2 scanner hend ih =>
    obtain ⟨hstop, hmade⟩ | ⟨hmore, hmade⟩ :=
      policy.made_cons_cases scanner.call scanner.next.2.calls
    · exact ⟨[], scanner.call, hmade, List.forall_mem_nil _, .inr hstop⟩
    · obtain ⟨before, last, hlater, hbefore, hlast⟩ := ih
      refine ⟨scanner.call :: before, last, hmade.trans (congrArg _ hlater), ?_, hlast⟩
      exact List.forall_mem_cons.2 ⟨⟨Bool.eq_false_iff.2 hend, hmore⟩, hbefore⟩

/-- The same by the number of the last call. -/
theorem exists_made_eq (policy : ErrorPolicy) (scanner : Scanner) :
    ∃ last, policy.made scanner.calls =
        (List.range last).map (fun i => (scanner.after i).call) ++ [(scanner.after last).call] ∧
      (∀ i < last, (scanner.token i).isEndOfInput = false ∧
        ((scanner.token i).isError = false ∨ policy = .skip)) ∧
      ((scanner.token last).isEndOfInput = true ∨
        (scanner.token last).isError = true ∧ policy = .stop) := by
  obtain ⟨before, last, hmade, hbefore, hlast⟩ := exists_made_eq_append policy scanner
  have hmap := made_eq_map policy scanner
  rw [hmade, List.length_append, List.length_singleton, List.range_succ, List.map_append,
    List.map_singleton] at hmap
  obtain ⟨hinit, hend⟩ := List.append_inj' hmap rfl
  obtain rfl := List.singleton_inj.1 hend
  refine ⟨before.length, hmade.trans hmap, ?_, hlast⟩
  intro i hi
  have hcall : (scanner.after i).call ∈ before := by
    rw [hinit]
    exact List.mem_map_of_mem (List.mem_range.2 hi)
  exact hbefore _ hcall

/-- There are no more calls than bytes left and one, as all but the last take a byte. -/
theorem offset_add_length_calls_le (h : scanner.cursor.ReadAhead) :
    scanner.offset + scanner.calls.length ≤ scanner.source.size + 1 := by
  fun_induction calls scanner with
  | case1 scanner hend => exact Nat.add_le_add_right h.position_le 1
  | case2 scanner hend ih =>
    have hlater := ih (readAhead_next h)
    have hbefore := (tile_next h).before_le
    rw [source_next h] at hlater
    rw [List.length_cons]
    rcases isEndOfInput_or_lt h with ⟨htoken, -⟩ | ⟨-, hlt⟩
    · rw [htoken] at hend
      exact absurd rfl hend
    · omega

/-! ## The causes that are collected -/

/-- The cause is the one that is kept for the call with a number, and what it claims of
the source holds of what that call took. -/
def KeptAt (scanner : Scanner) (i : Nat) (cause : Cause) : Prop :=
  (scanner.after (i + 1)).lastCause = some cause ∧
    Blamed scanner.source (scanner.token i).offset cause (scanner.after (i + 1)).offset

/-- The next calls have the causes that are kept for their errors, one for each. A call without
an error has no cause of its own, even though an earlier one may still be kept. -/
theorem forall₂_errorsAmong (h : scanner.cursor.ReadAhead) (n : Nat) :
    List.Forall₂ scanner.KeptAt (scanner.errorsAmong n)
      (((List.range n).map fun i => (scanner.after i).call).filterMap Call.cause?) := by
  rw [List.filterMap_map]
  apply forall₂_filterMap
  intro i _
  obtain hnone | ⟨herror, hcause⟩ := (scanner.after i).call.cause?_cases
  · exact .inl hnone
  · right
    obtain ⟨hnot, -⟩ | ⟨cause, -, hkept, hblamed⟩ := next_blamed (readAhead_after h i)
    · exact absurd herror (Bool.eq_false_iff.1 hnot)
    · rw [source_after h i] at hblamed
      exact ⟨herror, cause, hcause.trans hkept, hkept, hblamed⟩

theorem length_errorsAmong (scanner : Scanner) (n : Nat) :
    (scanner.errorsAmong n).length = (scanner.upcoming n).countP Token.isError := by
  rw [errorsAmong, upcoming, List.countP_map, List.countP_eq_length_filter]
  rfl

end Scanner

/-! ## What an emission accounts for -/

/-- What an emission accounts for, if the last token that it takes has this number:
`scanner` and `sink` are what it was given. -/
structure Accounts (options : Options) (scanner : Scanner) (sink : Sink) (emission : Emission)
    (last : Nat) : Prop where
  /-- All tokens that it takes are counted, and there are no more of them than bytes left
  and one. -/
  tokens : emission.summary.tokens = last + 1
  bounded : scanner.offset + emission.summary.tokens ≤ scanner.source.size + 1
  /-- They are the tokens that come next: the scanner has moved by so many calls. -/
  moved : emission.scanner = scanner.after (last + 1)
  /-- It goes on as long as the source does and no error is stopped at. -/
  more : ∀ i < last, (scanner.token i).isEndOfInput = false ∧
    ((scanner.token i).isError = false ∨ options.onError = .skip)
  ended : (scanner.token last).isEndOfInput = true ∨
    (scanner.token last).isError = true ∧ options.onError = .stop
  errors : emission.summary.errors = (scanner.upcoming (last + 1)).countP Token.isError
  /-- What was collected before is followed by a diagnostic for each error, made from the
  cause that is kept for this error. -/
  diagnostics : ∃ causes,
    emission.sink.diagnostics.toList = sink.diagnostics.toList ++ causes.map Cause.diagnostic ∧
    causes.length = emission.summary.errors ∧
    List.Forall₂ scanner.KeptAt (scanner.errorsAmong (last + 1)) causes
  stoppedEarly : emission.summary.stoppedEarly = true ↔ options.onError = .stop ∧
    (scanner.token last).isError = true ∧ emission.scanner.offset < scanner.source.size
  /-- How tokens are written decides what is written of them, -/
  output : emission.sink.output = sink.output ++ options.lines (scanner.upcoming (last + 1))
  /-- and nothing else. -/
  independent : ∀ other : Options, other.onError = options.onError →
    (emit other scanner sink).summary = emission.summary ∧
    (emit other scanner sink).sink.diagnostics = emission.sink.diagnostics ∧
    (emit other scanner sink).scanner = emission.scanner

/-- All but the output is settled by the policy. -/
theorem emit_congr {options other : Options} (h : other.onError = options.onError)
    (scanner : Scanner) (sink : Sink) :
    (emit other scanner sink).summary = (emit options scanner sink).summary ∧
      (emit other scanner sink).sink.diagnostics = (emit options scanner sink).sink.diagnostics ∧
      (emit other scanner sink).scanner = (emit options scanner sink).scanner := by
  obtain ⟨last, hmade, -, -⟩ := Scanner.exists_made_eq options.onError scanner
  have hother := hmade
  rw [← h] at hother
  have hsummary : (emit other scanner sink).summary = (emit options scanner sink).summary := by
    rw [Summary.mk.injEq, tokens_emit, tokens_emit, errors_emit, errors_emit,
      stoppedEarly_emit hother, stoppedEarly_emit hmade, h]
    exact ⟨rfl, rfl, rfl⟩
  have hdiagnostics : (emit other scanner sink).sink.diagnostics =
      (emit options scanner sink).sink.diagnostics := by
    rw [← Array.toList_inj, diagnostics_emit, diagnostics_emit, h]
  exact ⟨hsummary, hdiagnostics, (scanner_emit hother).trans (scanner_emit hmade).symm⟩

/-- **An emission accounts for what it takes**, on any scanner that is reached and whatever was
collected before. The number of the last token settles the rest: what is counted, reported
and written is said of the tokens up to it. That it is the last is for the policy and for
this token to say and for no other option, so the format and the silence change the output
alone. -/
theorem emit_accounts (options : Options) {source : ByteArray} {scanner : Scanner}
    (h : Scanner.Reachable source scanner) (sink : Sink) :
    ∃ last, Accounts options scanner sink (emit options scanner sink) last := by
  obtain ⟨last, hmade, hmore, hended⟩ := Scanner.exists_made_eq options.onError scanner
  have hwhole : options.onError.made scanner.calls =
      (List.range (last + 1)).map fun i => (scanner.after i).call := by
    rw [hmade, List.range_succ, List.map_append, List.map_singleton]
  have hlength : (options.onError.made scanner.calls).length = last + 1 := by
    rw [hwhole, List.length_map, List.length_range]
  have htokens : (emit options scanner sink).summary.tokens = last + 1 :=
    tokens_emit.trans hlength
  have hscanner : (emit options scanner sink).scanner = scanner.after (last + 1) :=
    scanner_emit hmade
  have herrors : (emit options scanner sink).summary.errors =
      (scanner.upcoming (last + 1)).countP Token.isError := by
    rw [errors_emit, ← hlength, ← Scanner.map_token_made, List.countP_map]
    rfl
  refine ⟨last, htokens, ?bounded, hscanner, hmore, hended, herrors, ?diagnostics, ?stoppedEarly,
    ?output, ?independent⟩
  case bounded =>
    have hcalls := (options.onError.made_prefix scanner.calls).length_le
    have hle := Scanner.offset_add_length_calls_le h.readAhead
    omega
  case diagnostics =>
    have hcauses := Scanner.forall₂_errorsAmong h.readAhead (last + 1)
    refine ⟨_, by rw [diagnostics_emit, hwhole], ?_, hcauses⟩
    rw [herrors, ← Scanner.length_errorsAmong, hcauses.length_eq]
  case stoppedEarly =>
    have hmem : (scanner.after last).call ∈ scanner.calls := by
      apply (options.onError.made_prefix scanner.calls).subset
      rw [hmade]
      exact List.mem_append_right _ (List.mem_singleton_self _)
    have hexhausted := Scanner.isExhausted_of_mem_calls h.readAhead hmem
    rw [stoppedEarly_emit hmade, hexhausted, hscanner, Bool.and_eq_true, Bool.not_eq_true',
      decide_eq_false_iff_not, Nat.not_le]
    refine ⟨fun ⟨herror, hleft⟩ => ⟨?_, herror, hleft⟩, fun ⟨_, herror, hleft⟩ => ⟨herror, hleft⟩⟩
    -- an error is not the end of the source, so the emission ended at it because it stops
    obtain hend | ⟨-, hstop⟩ := hended
    · have hnot : (scanner.token last).isError = false := Token.isError_of_isEndOfInput hend
      exact absurd herror (Bool.eq_false_iff.1 hnot)
    · exact hstop
  case output =>
    rw [output_emit, Scanner.map_token_made, hlength]
  case independent => exact fun other hother => emit_congr hother scanner sink

/-- A stray character, a word, and a string that nothing closes. -/
def strayThenUnclosed : ByteArray :=
  ⟨#[0x5E, 0x61, 0x20, 0x22, 0x0A]⟩

/-- With the cause of the stray character still kept and a diagnostic collected, the word
and the string are taken, and no byte is left to stop early for. -/
theorem emit_accounts_unclosed :
    Scanner.Reachable strayThenUnclosed (Scanner.start strayThenUnclosed).next.2 ∧
      Accounts ⟨none, .stop, .json, false, 0⟩ (Scanner.start strayThenUnclosed).next.2
        ⟨"", #[.ofMessage .stoppedEarly []]⟩
        (emit ⟨none, .stop, .json, false, 0⟩ (Scanner.start strayThenUnclosed).next.2
          ⟨"", #[.ofMessage .stoppedEarly []]⟩) 1 ∧
      (emit ⟨none, .stop, .json, false, 0⟩ (Scanner.start strayThenUnclosed).next.2
        ⟨"", #[.ofMessage .stoppedEarly []]⟩).summary = ⟨2, 1, false⟩ := by
  have hreachable :
      Scanner.Reachable strayThenUnclosed (Scanner.start strayThenUnclosed).next.2 :=
    ⟨[.next], rfl⟩
  have hsummary : (emit ⟨none, .stop, .json, false, 0⟩ (Scanner.start strayThenUnclosed).next.2
      ⟨"", #[.ofMessage .stoppedEarly []]⟩).summary = ⟨2, 1, false⟩ := by
    decide +kernel
  obtain ⟨last, haccounts⟩ := emit_accounts ⟨none, .stop, .json, false, 0⟩ hreachable
    ⟨"", #[.ofMessage .stoppedEarly []]⟩
  have htokens := haccounts.tokens
  rw [hsummary, Nat.succ.injEq] at htokens
  exact ⟨hreachable, htokens ▸ haccounts, hsummary⟩

end ByteLexer
