import ByteLexer.Proofs.Command.Accounting
import ByteLexer.Proofs.Command.Policies
import ByteLexer.Proofs.Diagnostic.OneLine

/-!
# A source cannot break the lines of its report

Whatever bytes a source holds, what a run reports of it without colour has one line for
each diagnostic, and no control character but the line feeds that end the lines
(`reports_in_lines`). So the errors can be counted by the lines of the report, and a
terminal that shows it is not given orders by the source.

A diagnostic is about an error of the run or says that the run was stopped
(`mem_reported`), and in neither text does a control character stand. What is left to
ask for is that there be none in the name under which the source goes.

**What it takes as given.** The size of the source is a word, so that each diagnostic has its
line, and the name is free of control characters, which is for the caller to see to.

**What it does not establish.** With colour the lines hold escape characters by design, and
nothing is said of them. Characters that change the direction of what follows are not among
the control characters of `IsControl`, and that they are hidden too is left to the table. The
output is another matter: on a plain line the text of a token is written as it is.
-/

namespace ByteLexer

variable {name : String} {source : ByteArray} {options : Options} {diagnostic : Diagnostic}

/-! ## What is reported -/

theorem toList_reported (options : Options) (scanner : Scanner) :
    (Outcome.reported (emit options scanner Sink.empty)).toList =
      ((options.onError.made scanner.calls).filterMap Call.cause?).map Cause.diagnostic ++
        if (emit options scanner Sink.empty).summary.stoppedEarly then
          [.ofMessage .stoppedEarly []]
        else [] := by
  rw [reported_eq, diagnostics_emit]
  rfl

/-- A run reports causes of its errors, and that it was stopped. -/
theorem mem_reported {scanner : Scanner}
    (h : diagnostic ∈ (Outcome.reported (emit options scanner Sink.empty)).toList) :
    (∃ call ∈ scanner.calls, ∃ cause, call.cause? = some cause ∧ diagnostic = cause.diagnostic) ∨
      diagnostic = .ofMessage .stoppedEarly [] := by
  rw [toList_reported, List.mem_append] at h
  obtain herrors | hnotice := h
  · left
    obtain ⟨cause, hcause, rfl⟩ := List.mem_map.1 herrors
    obtain ⟨call, hcall, hkept⟩ := List.mem_filterMap.1 hcause
    exact ⟨call, (options.onError.made_prefix scanner.calls).subset hcall, cause, hkept, rfl⟩
  · right
    split at hnotice
    · exact List.mem_singleton.1 hnotice
    · exact absurd hnotice List.not_mem_nil

/-- There is a diagnostic for each error that a run takes, and one more if it was stopped. -/
theorem length_reported {scanner : Scanner} (h : scanner.cursor.ReadAhead) :
    (Outcome.reported (emit options scanner Sink.empty)).toList.length =
      (emit options scanner Sink.empty).summary.errors +
        if (emit options scanner Sink.empty).summary.stoppedEarly then 1 else 0 := by
  -- errors and causes stand in pairs, so there are as many of the one as of the other
  have hcauses : List.Forall₂ (fun call cause => call.after.lastCause = some cause)
      ((options.onError.made scanner.calls).filter Call.isError)
      ((options.onError.made scanner.calls).filterMap Call.cause?) := by
    apply forall₂_filterMap
    intro call hcall
    obtain hnone | ⟨herror, hlast⟩ := call.cause?_cases
    · exact .inl hnone
    · have hmem := (options.onError.made_prefix scanner.calls).subset hcall
      obtain ⟨cause, hkept, -⟩ := Scanner.exists_cause_of_mem_calls h hmem herror
      exact .inr ⟨herror, cause, hlast.trans hkept, hkept⟩
  rw [toList_reported, List.length_append, List.length_map, ← hcauses.length_eq,
    ← List.countP_eq_length_filter, ← errors_emit]
  congr 1
  split <;> rfl

/-- The source has no way into the text of what is reported but by its characters as they
are shown. -/
theorem noControl_text_of_mem_reported {scanner : Scanner}
    (h : diagnostic ∈ (Outcome.reported (emit options scanner Sink.empty)).toList) :
    NoControl diagnostic.text.toList := by
  obtain ⟨-, -, cause, -, rfl⟩ | rfl := mem_reported h
  · exact cause.noControl_text
  · exact noControl_text_stoppedEarly

/-- What is reported of a source that a machine can hold is written without overflow. -/
theorem exists_line_of_mem_reported {color : Bool} (hsize : source.size < UInt64.size)
    (h : diagnostic ∈
      (Outcome.reported (emit options (Scanner.start source) Sink.empty)).toList) :
    ∃ line, WrittenAs name source color diagnostic line := by
  obtain ⟨call, hcall, cause, hcause, rfl⟩ | rfl := mem_reported h
  · obtain ⟨-, hnone⟩ | ⟨herror, hlast⟩ := call.cause?_cases
    · rw [hnone] at hcause
      cases hcause
    · obtain ⟨line, other, hkept, hline⟩ := exists_line_of_mem_calls hsize hcall herror
      rw [← hlast, hcause, Option.some.injEq] at hkept
      exact ⟨line, hkept ▸ hline⟩
  · exact exists_line_stoppedEarly

/-! ## The lines -/

/-- A report without colour is framed by its line feeds. -/
structure Framed (name : String) (source : ByteArray) (diagnostics : List Diagnostic)
    (report : String) : Prop where
  /-- Each diagnostic is written as one line, in order. -/
  lines : ∃ lines, report = String.join lines ∧
    List.Forall₂ (fun diagnostic line =>
      WrittenAs name source false diagnostic line ∧ IsLine line) diagnostics lines
  /-- So there are as many line feeds as diagnostics, -/
  counted : report.toList.count '\n' = diagnostics.length
  /-- and no other control character. -/
  clean : ∀ c ∈ report.toList, IsControl c → c = '\n'

theorem framed_of_lines {diagnostics : List Diagnostic} {lines : List String}
    (h : List.Forall₂ (fun diagnostic line =>
      WrittenAs name source false diagnostic line ∧ IsLine line) diagnostics lines) :
    Framed name source diagnostics (String.join lines) := by
  have hlines : ∀ line ∈ lines, IsLine line := by
    have hflipped : List.Forall₂ (fun line diagnostic =>
        IsLine line ∧ WrittenAs name source false diagnostic line) lines diagnostics :=
      (h.imp fun _ _ => And.symm).flip
    exact ((List.forall₂_and_left _ _).1 hflipped).1
  exact
    { lines := ⟨lines, rfl, h⟩
      counted := (count_lineFeed_join hlines).trans h.length_eq.symm
      clean := fun _ => eq_lineFeed_of_mem_join hlines }

/-- With a name that holds no control character, a text that holds none is one line. -/
theorem isLine_of_writtenAs (hname : NoControl name.toList)
    (htext : NoControl diagnostic.text.toList) {line : String}
    (h : WrittenAs name source false diagnostic line) : IsLine line := by
  refine (Diagnostic.isLine_render_iff h).2 ⟨?_, htext⟩
  rintro file ⟨⟩
  exact hname

/-- **A source cannot break the lines of its report**, whatever happens at errors and however
tokens are written. A run without colour has an outcome. Its report has a line for each
error that the run takes, and one more if it was stopped, and these are all its line feeds,
with no other control character beside them. A line is broken by its text or by the name, and
what the source puts into the text are characters as they are shown (`noControl_text`). -/
theorem reports_in_lines (options : Options) {name : String} (hname : NoControl name.toList)
    {source : ByteArray} (hsize : source.size < UInt64.size) :
    ∃ outcome, Outcome.ofSource options name source false = .ok outcome ∧
      Framed name source
        (Outcome.reported (emit options (Scanner.start source) Sink.empty)).toList
        outcome.report ∧
      outcome.report.toList.count '\n' =
        (emit options (Scanner.start source) Sink.empty).summary.errors +
          if (emit options (Scanner.start source) Sink.empty).summary.stoppedEarly then 1
          else 0 := by
  obtain ⟨emission, hemission⟩ :
      ∃ emission, emission = emit options (Scanner.start source) Sink.empty := ⟨_, rfl⟩
  obtain ⟨lines, hlines⟩ : ∃ lines, List.Forall₂ (fun diagnostic line =>
      WrittenAs name source false diagnostic line ∧ IsLine line)
        (Outcome.reported emission).toList lines := by
    apply exists_lines
    intro diagnostic hmem
    rw [hemission] at hmem
    obtain ⟨line, hline⟩ := exists_line_of_mem_reported hsize hmem
    exact ⟨line, hline, isLine_of_writtenAs hname (noControl_text_of_mem_reported hmem) hline⟩
  have hreport : Outcome.renderAll name (LineMap.ofSource source) false
      (Outcome.reported emission) = .ok (String.join lines) :=
    renderAll_eq (hlines.imp fun _ _ => And.left)
  have hframed := framed_of_lines hlines
  refine ⟨⟨if emission.summary.errors > 0 then 1 else 0, emission.sink.output,
    String.join lines⟩, ?_, ?_, ?_⟩
  · rw [Outcome.ofSource, ← hemission, hreport]
    rfl
  · rw [← hemission]
    exact hframed
  · rw [hframed.counted, hemission]
    exact length_reported (Scanner.readAhead_start source)

/-- An escape, a bracket, a next-line control, a delete, a byte of no character, and on the
next line a string that nothing closes. -/
def hostile : ByteArray :=
  ⟨#[0x1B, 0x5B, 0xC2, 0x85, 0x7F, 0xFF, 0x0A, 0x22, 0x0A]⟩

/-- What is reported of it. -/
def hostileReport : String :=
  "a.td:1:1: error TBL1127: Invalid character '\\u\x7b1b\x7d'.\n" ++
  "a.td:1:3: error TBL1127: Invalid character '\\u\x7b85\x7d'.\n" ++
  "a.td:1:5: error TBL1127: Invalid character '\\u\x7b7f\x7d'.\n" ++
  "a.td:1:6: error TBL1128: Invalid UTF-8 sequence of 1 byte(s).\n" ++
  "a.td:2:1: error TBL1002: Unterminated string literal.\n"

/-- Five errors are reported in as many lines. -/
theorem reports_in_lines_hostile :
    NoControl "a.td".toList ∧ hostile.size < UInt64.size ∧
      Outcome.ofSource ⟨none, .skip, .text, true, 0⟩ "a.td" hostile false =
        .ok ⟨1, "", hostileReport⟩ ∧
      Framed "a.td" hostile (Outcome.reported (emit ⟨none, .skip, .text, true, 0⟩
        (Scanner.start hostile) Sink.empty)).toList hostileReport ∧
      hostileReport.toList.count '\n' = 5 := by
  have hname : NoControl "a.td".toList := by decide
  have hsize : hostile.size < UInt64.size := by decide
  have hvalue : Outcome.ofSource ⟨none, .skip, .text, true, 0⟩ "a.td" hostile false =
      .ok ⟨1, "", hostileReport⟩ := by
    decide +kernel
  have hsummary : (emit ⟨none, .skip, .text, true, 0⟩ (Scanner.start hostile)
      Sink.empty).summary = ⟨7, 5, false⟩ := by
    decide +kernel
  obtain ⟨outcome, houtcome, hframed, hcount⟩ :=
    reports_in_lines ⟨none, .skip, .text, true, 0⟩ hname hsize
  rw [hvalue, Except.ok.injEq] at houtcome
  subst houtcome
  rw [hsummary] at hcount
  exact ⟨hname, hsize, hvalue, hframed, hcount⟩

end ByteLexer
