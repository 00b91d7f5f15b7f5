import ByteLexer.Proofs.Command.Reports

/-!
# Stopping and skipping agree

The two policies are two views of one run over the source. What a run writes and
reports is read off the calls that its policy makes (`ofSource_eq`), and the policy
that stops makes those of the other up to the first error: so it writes the same
lines as far as it goes, reports the first of the same errors, and ends with the
same exit code (`runs_agree`).

The statement names the reports before it speaks of any options. They are the same
for every format, with or without the tokens.

**What it takes as given.** The source has been read and both streams take what is written:
a run on a file that cannot be read has no place here. The log is left out, so the option
that asks for more of it changes nothing. Whether there is colour is settled before the run,
once for all options.

**What it does not establish.** The content of a line is that of `Diagnostic.render`, which is
looked at elsewhere. Nothing is said of the order in which the two streams are seen.
-/

namespace ByteLexer

variable {name : String} {source : ByteArray} {color : Bool}

theorem reported_eq {emission : Emission} :
    (Outcome.reported emission).toList = emission.sink.diagnostics.toList ++
      if emission.summary.stoppedEarly then [.ofMessage .stoppedEarly []] else [] := by
  unfold Outcome.reported
  split
  · exact Array.toList_push
  · exact (List.append_nil _).symm

/-- What a run comes to, by the calls that its policy makes: the exit code by whether one of
them is an error, the output by their tokens, and the report by the lines of the errors, with
the notice behind them if the last call is an error that leaves bytes. -/
theorem ofSource_eq {options : Options} {before : List Call} {last : Call} {lines : List String}
    {notice : String}
    (hmade : options.onError.made (Scanner.start source).calls = before ++ [last])
    (hlines : List.Forall₂ (ReportedAs name source color)
      ((before ++ [last]).filter Call.isError) lines)
    (hnotice : WrittenAs name source color (.ofMessage .stoppedEarly []) notice) :
    Outcome.ofSource options name source color =
      .ok ⟨if (before ++ [last]).any Call.isError then 1 else 0,
        options.lines ((before ++ [last]).map Call.token),
        String.join lines ++ if last.isError && !last.after.isExhausted then notice else ""⟩ := by
  obtain ⟨emission, hemission⟩ :
      ∃ emission, emission = emit options (Scanner.start source) Sink.empty := ⟨_, rfl⟩
  have hfold : emission = (before ++ [last]).foldl (Emission.takeIn options)
      ⟨⟨0, 0, false⟩, Sink.empty, Scanner.start source⟩ := by
    rw [hemission, emit, emitFrom_eq options 0 0 _ _ false, hmade]
  have herrors : emission.summary.errors = (before ++ [last]).countP Call.isError := by
    rw [hfold, Emission.errors_foldl_takeIn, Nat.zero_add]
  have houtput : emission.sink.output = options.lines ((before ++ [last]).map Call.token) := by
    rw [hfold, Emission.output_foldl_takeIn]
    exact String.empty_append
  have hdiagnostics : emission.sink.diagnostics.toList =
      ((before ++ [last]).filterMap Call.cause?).map Cause.diagnostic := by
    rw [hfold, Emission.diagnostics_foldl_takeIn]
    rfl
  have hstopped : emission.summary.stoppedEarly = (last.isError && !last.after.isExhausted) := by
    rw [hfold, Emission.stoppedEarly_foldl_takeIn]
  have hall : List.Forall₂ (WrittenAs name source color) (Outcome.reported emission).toList
      (lines ++ if last.isError && !last.after.isExhausted then [notice] else []) := by
    rw [reported_eq, hdiagnostics, hstopped]
    refine List.rel_append (forall₂_diagnostics hlines) ?_
    split
    · exact .cons hnotice .nil
    · exact .nil
  have hreport : Outcome.renderAll name (LineMap.ofSource source) color
      (Outcome.reported emission) = .ok (String.join lines ++
        if last.isError && !last.after.isExhausted then notice else "") := by
    rw [renderAll_eq hall, String.join_append]
    split
    · rw [String.join_cons, String.join_nil, String.append_empty]
    · rfl
  have hcode : (if emission.summary.errors > 0 then 1 else 0) =
      if (before ++ [last]).any Call.isError then 1 else 0 := by
    rw [herrors]
    simp only [gt_iff_lt, List.countP_pos_iff, List.any_eq_true]
  rw [Outcome.ofSource, ← hemission, hreport, ← houtput, ← hcode]
  rfl

/-! ## The two policies -/

section

variable {options : Options} {lines : List String} {notice : String}

/-- A run that skips errors ends with the end of the source. -/
theorem ofSource_of_skip (hskip : options.onError = .skip)
    (hlines : List.Forall₂ (ReportedAs name source color)
      ((Scanner.start source).calls.filter Call.isError) lines)
    (hnotice : WrittenAs name source color (.ofMessage .stoppedEarly []) notice) :
    Outcome.ofSource options name source color =
      .ok ⟨if (tokenize source).any Token.isError then 1 else 0, options.lines (tokenize source),
        String.join lines⟩ := by
  obtain ⟨before, last, hcalls, hlast⟩ := (Scanner.start source).exists_calls_eq_append
  have hmade : options.onError.made (Scanner.start source).calls = before ++ [last] := by
    rw [hskip]
    exact hcalls
  have herror : last.isError = false := Token.isError_of_isEndOfInput hlast
  have hany : (tokenize source).any Token.isError = (before ++ [last]).any Call.isError := by
    rw [Scanner.tokenize_eq_map_calls, hcalls, List.any_map]
    rfl
  rw [ofSource_eq hmade (hcalls ▸ hlines) hnotice, herror, Bool.false_and,
    if_neg Bool.false_ne_true, String.append_empty, hany, Scanner.tokenize_eq_map_calls, hcalls]

/-- A run that stops at errors goes to the end of a source without errors. -/
theorem ofSource_of_stop_of_not (hstop : options.onError = .stop)
    (hnone : ∀ token ∈ tokenize source, token.isError = false)
    (hnotice : WrittenAs name source color (.ofMessage .stoppedEarly []) notice) :
    Outcome.ofSource options name source color = .ok ⟨0, options.lines (tokenize source), ""⟩ := by
  obtain ⟨before, last, hcalls, -⟩ := (Scanner.start source).exists_calls_eq_append
  have herrors : ∀ call ∈ (Scanner.start source).calls, call.isError = false := by
    intro call hcall
    apply hnone
    rw [Scanner.tokenize_eq_map_calls]
    exact List.mem_map_of_mem hcall
  have hmade : options.onError.made (Scanner.start source).calls = before ++ [last] := by
    rw [hstop, ← hcalls]
    exact upToError_eq_self herrors
  rw [hcalls] at herrors
  have hlines : List.Forall₂ (ReportedAs name source color)
      ((before ++ [last]).filter Call.isError) [] := by
    rw [filter_isError_eq_nil herrors]
    exact .nil
  have hany : (before ++ [last]).any Call.isError = false :=
    List.any_eq_false.2 fun call hcall => Bool.eq_false_iff.1 (herrors call hcall)
  have hlast : last.isError = false :=
    herrors last (List.mem_append_right _ (List.mem_singleton_self _))
  rw [ofSource_eq hmade hlines hnotice, hany, hlast, Scanner.tokenize_eq_map_calls, hcalls]
  rfl

/-- With an error, it goes up to the first, and has the notice if bytes are left. -/
theorem ofSource_of_stop_of_error (hstop : options.onError = .stop) {before behind : List Call}
    {call : Call} (hcalls : (Scanner.start source).calls = before ++ call :: behind)
    (hbefore : ∀ call ∈ before, call.isError = false) (herror : call.isError = true)
    (hlines : List.Forall₂ (ReportedAs name source color)
      ((Scanner.start source).calls.filter Call.isError) lines)
    (hnotice : WrittenAs name source color (.ofMessage .stoppedEarly []) notice) :
    ∃ line more, lines = line :: more ∧
      Outcome.ofSource options name source color =
        .ok ⟨1, options.lines ((before ++ [call]).map Call.token),
          line ++ if call.after.offset < source.size then notice else ""⟩ := by
  have hmade : options.onError.made (Scanner.start source).calls = before ++ [call] := by
    rw [hstop, hcalls]
    exact upToError_append hbefore herror
  -- the first of the errors is the only one among the calls that are made
  have hnone := filter_isError_eq_nil hbefore
  rw [hcalls, List.filter_append, hnone, List.nil_append, List.filter_cons_of_pos herror] at hlines
  obtain ⟨line, more, hline, -, rfl⟩ := List.forall₂_cons_left_iff.1 hlines
  refine ⟨line, more, rfl, ?_⟩
  have hfirst : List.Forall₂ (ReportedAs name source color)
      ((before ++ [call]).filter Call.isError) [line] := by
    rw [List.filter_append, hnone, List.nil_append, List.filter_cons_of_pos herror]
    exact .cons hline .nil
  have hany : (before ++ [call]).any Call.isError = true :=
    List.any_eq_true.2 ⟨call, List.mem_append_right _ (List.mem_singleton_self _), herror⟩
  have hleft : call.after.isExhausted = decide (source.size ≤ call.after.offset) := by
    have hmem : call ∈ (Scanner.start source).calls :=
      hcalls ▸ List.mem_append_right _ List.mem_cons_self
    rw [Scanner.isExhausted_of_mem_calls (Scanner.readAhead_start source) hmem,
      Scanner.source_start]
  rw [ofSource_eq hmade hfirst hnotice, hany, herror, hleft]
  simp only [if_true, Bool.true_and, Bool.not_eq_true', decide_eq_false_iff_not, Nat.not_le,
    String.join_cons, String.join_nil, String.append_empty]

end

/-- What runs over one source have in common, whatever their options: `lines` report its
errors, and `notice` says that the rest was not scanned. Both are fixed before any options
are named, so no run can have reports of its own. -/
structure RunsAgree (name : String) (source : ByteArray) (color : Bool) (lines : List String)
    (notice : String) : Prop where
  /-- The calls hand out the tokens of the source. -/
  tokens : (Scanner.start source).calls.map Call.token = tokenize source
  /-- There is a line for each error, in order. -/
  reports : List.Forall₂ (ReportedAs name source color)
    ((Scanner.start source).calls.filter Call.isError) lines
  notices : WrittenAs name source color (.ofMessage .stoppedEarly []) notice
  /-- A run that skips errors writes all tokens and reports all errors. -/
  skip (options : Options) : options.onError = .skip →
    Outcome.ofSource options name source color =
      .ok ⟨if (tokenize source).any Token.isError then 1 else 0, options.lines (tokenize source),
        String.join lines⟩
  /-- Without an error, a run that stops at errors does the same. -/
  stop_of_not (options : Options) : options.onError = .stop →
    (∀ token ∈ tokenize source, token.isError = false) →
    Outcome.ofSource options name source color = .ok ⟨0, options.lines (tokenize source), ""⟩
  /-- With one, it writes the tokens up to the first error and reports that error,
  and then the notice, if there are bytes left. -/
  stop_of_error (options : Options) (before : List Call) (call : Call) (behind : List Call) :
    options.onError = .stop →
    (Scanner.start source).calls = before ++ call :: behind →
    (∀ call ∈ before, call.isError = false) → call.isError = true →
    ∃ line more, lines = line :: more ∧
      Outcome.ofSource options name source color =
        .ok ⟨1, options.lines ((before ++ [call]).map Call.token),
          line ++ if call.after.offset < source.size then notice else ""⟩

/-- **Stopping and skipping agree.** There are lines, one for each error of the source, and a
notice, such that every run is made of these: the one that skips errors reports all lines,
and the one that stops reports the first, with the notice if there are bytes left. On a
source that a machine can hold none of them overflows, so both runs have an outcome. -/
theorem runs_agree (name : String) (source : ByteArray) (color : Bool)
    (hsize : source.size < UInt64.size) :
    ∃ lines notice, RunsAgree name source color lines notice := by
  obtain ⟨lines, hlines⟩ : ∃ lines, List.Forall₂ (ReportedAs name source color)
      ((Scanner.start source).calls.filter Call.isError) lines := by
    apply exists_lines
    intro call hcall
    obtain ⟨hcall, herror⟩ := List.mem_filter.1 hcall
    exact exists_line_of_mem_calls hsize hcall herror
  obtain ⟨notice, hnotice⟩ : ∃ notice,
      WrittenAs name source color (.ofMessage .stoppedEarly []) notice := exists_line_stoppedEarly
  exact ⟨lines, notice,
    { tokens := (Scanner.tokenize_eq_map_calls source).symm
      reports := hlines
      notices := hnotice
      skip := fun _ hskip => ofSource_of_skip hskip hlines hnotice
      stop_of_not := fun _ hstop hnone => ofSource_of_stop_of_not hstop hnone hnotice
      stop_of_error := fun _ _ _ _ hstop hcalls hbefore herror =>
        ofSource_of_stop_of_error hstop hcalls hbefore herror hlines hnotice }⟩

/-- A name, a stray character, a byte of no character, and a name again. -/
def interrupted : ByteArray :=
  ⟨#[0x61, 0x20, 0x5E, 0x20, 0xFF, 0x20, 0x62]⟩

/-- What is reported of its errors. -/
def interruptedLines : List String :=
  ["input:1:3: error TBL1127: Invalid character '^'.\n",
   "input:1:5: error TBL1128: Invalid UTF-8 sequence of 1 byte(s).\n"]

/-- What is reported of the bytes behind the first of them. -/
def interruptedNotice : String :=
  "input: warning TBL6001: Scanning stopped at the first error; " ++
    "pass '--on-error skip' to continue past errors.\n"

/-- The run that skips errors writes five tokens and reports both errors; the one that stops
writes two, and reports the first error and that the rest was not scanned. -/
theorem runs_agree_stray :
    interrupted.size < UInt64.size ∧
      RunsAgree "input" interrupted false interruptedLines interruptedNotice ∧
      Outcome.ofSource ⟨none, .skip, .text, false, 0⟩ "input" interrupted false =
        .ok ⟨1, "Token\x7bIDENTIFIER, 'a', 0\x7d\n" ++ "Token\x7bERROR, '', 2\x7d\n" ++
            "Token\x7bERROR, '', 4\x7d\n" ++ "Token\x7bIDENTIFIER, 'b', 6\x7d\n" ++
            "Token\x7bEOF, '', 7\x7d\n",
          "input:1:3: error TBL1127: Invalid character '^'.\n" ++
            "input:1:5: error TBL1128: Invalid UTF-8 sequence of 1 byte(s).\n"⟩ ∧
      Outcome.ofSource ⟨none, .stop, .text, false, 0⟩ "input" interrupted false =
        .ok ⟨1, "Token\x7bIDENTIFIER, 'a', 0\x7d\n" ++ "Token\x7bERROR, '', 2\x7d\n",
          "input:1:3: error TBL1127: Invalid character '^'.\n" ++ interruptedNotice⟩ := by
  have hsize : interrupted.size < UInt64.size := by decide
  obtain ⟨lines, notice, hagree⟩ := runs_agree "input" interrupted false hsize
  -- the causes are evaluated, and a cause is written in one way only
  have hcauses : (Scanner.start interrupted).calls.filterMap Call.cause? =
      [.strayCharacter '^' 2, .malformedBytes 4 1] := by
    decide +kernel
  have hreported := forall₂_diagnostics hagree.reports
  have hexpected : List.Forall₂ (WrittenAs "input" interrupted false)
      ([Cause.strayCharacter '^' 2, .malformedBytes 4 1].map Cause.diagnostic)
      interruptedLines :=
    .cons (by decide +kernel) (.cons (by decide +kernel) .nil)
  rw [hcauses] at hreported
  obtain rfl : lines = interruptedLines := rightUnique_writtenAs.forall₂ hreported hexpected
  obtain rfl : notice = interruptedNotice :=
    rightUnique_writtenAs hagree.notices (by decide +kernel)
  exact ⟨hsize, hagree, by decide +kernel, by decide +kernel⟩

end ByteLexer
