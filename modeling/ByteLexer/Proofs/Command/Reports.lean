import ByteLexer.Command.Outcome
import ByteLexer.Proofs.Command.Emission
import ByteLexer.Proofs.Scan.Causes
import ByteLexer.Proofs.Text.LineMap
import Mathlib.Data.List.Forall2

/-!
# Reports are lines

What a run reports is a line for each diagnostic (`renderAll_eq`). Writing one
fails only where a line or a column overflows, which no place in a source does that
a machine can hold: so each error of a run has its line (`exists_line_of_mem_calls`),
and so has the message that the run was stopped (`exists_line_stoppedEarly`).

**What it takes as given.** A machine holds the source, which is to say that its size is a
word. Without that a line or a column could overflow when it is written, and the whole report
would be given up with it. The name of the source is any text, and so far it may break the
line that it stands on.
-/

namespace ByteLexer

variable {name : String} {source : ByteArray} {color : Bool}

/-- The diagnostic is written as this line, as one about a source of the given name. -/
def WrittenAs (name : String) (source : ByteArray) (color : Bool) (diagnostic : Diagnostic)
    (line : String) : Prop :=
  (diagnostic.inFile name).render (LineMap.ofSource source) color = .ok line

instance {diagnostic : Diagnostic} {line : String} :
    Decidable (WrittenAs name source color diagnostic line) :=
  inferInstanceAs (Decidable (_ = Except.ok line))

/-- The cause that the call keeps is written as this line. -/
def ReportedAs (name : String) (source : ByteArray) (color : Bool) (call : Call)
    (line : String) : Prop :=
  ∃ cause, call.after.lastCause = some cause ∧ WrittenAs name source color cause.diagnostic line

/-! ## One line -/

/-- A diagnostic is written in one way only. -/
theorem rightUnique_writtenAs : Relator.RightUnique (WrittenAs name source color) :=
  fun _ _ _ hfirst hsecond => Except.ok.inj (hfirst.symm.trans hsecond)

/-- A diagnostic about a place in the source is written with the name of the source and
that place in front. -/
theorem writtenAs_atSpan {span : Span} {place : String}
    (h : ((LineMap.ofSource source).position span.start).display = .ok place) (message : Message)
    (arguments : List String) :
    WrittenAs name source color (.atSpan span message arguments)
      (Diagnostic.locationPart color (some (name ++ ":" ++ place)) ++
        (Diagnostic.atSpan span message arguments).headingPart color ++ ": " ++
        (Diagnostic.atSpan span message arguments).text ++ "\n") := by
  rw [WrittenAs, Diagnostic.render, Diagnostic.location]
  simp only [Diagnostic.inFile, Diagnostic.atSpan]
  rw [h]
  rfl

/-- The message that the rest was not scanned is about no place, and has a line. -/
theorem exists_line_stoppedEarly :
    ∃ line, WrittenAs name source color (.ofMessage .stoppedEarly []) line :=
  ⟨_, rfl⟩

/-- Each error of a run has its line. The call keeps a cause, which points into the source
(`exists_cause_of_mem_calls`), and a place in the source is written without overflow. -/
theorem exists_line_of_mem_calls (hsize : source.size < UInt64.size) {call : Call}
    (hcall : call ∈ (Scanner.start source).calls) (herror : call.isError = true) :
    ∃ line, ReportedAs name source color call line := by
  have h := Scanner.readAhead_start source
  obtain ⟨cause, hkept, hpos, hinside⟩ := Scanner.span_inside_of_mem_calls h hcall herror
  rw [Scanner.source_start] at hinside
  have hplace : cause.span.start + 1 < UInt64.size := by omega
  exact ⟨_, cause, hkept,
    writtenAs_atSpan (LineMap.display_position hplace) cause.message cause.arguments⟩

/-! ## All lines -/

/-- Where each thing has a line, all have lines. -/
theorem exists_lines {α : Type} {written : α → String → Prop} {things : List α}
    (h : ∀ a ∈ things, ∃ line, written a line) : ∃ lines, List.Forall₂ written things lines := by
  induction things with
  | nil => exact ⟨[], .nil⟩
  | cons a things ih =>
    obtain ⟨ha, hthings⟩ := List.forall_mem_cons.1 h
    obtain ⟨line, hline⟩ := ha
    obtain ⟨lines, hlines⟩ := ih hthings
    exact ⟨line :: lines, .cons hline hlines⟩

/-- The lines of the errors are those of the diagnostics that an emission collects. -/
theorem forall₂_diagnostics {calls : List Call} {lines : List String}
    (h : List.Forall₂ (ReportedAs name source color) (calls.filter Call.isError) lines) :
    List.Forall₂ (WrittenAs name source color)
      ((calls.filterMap Call.cause?).map Cause.diagnostic) lines := by
  have hcauses : calls.filterMap Call.cause? =
      (calls.filter Call.isError).filterMap (·.after.lastCause) := List.filterMap_filter.symm
  rw [hcauses]
  generalize calls.filter Call.isError = errors at h
  induction h with
  | nil => exact .nil
  | cons hreported _ ih =>
    obtain ⟨cause, hkept, hline⟩ := hreported
    simp only [List.filterMap_cons, hkept, List.map_cons]
    exact .cons hline ih

theorem renderAll_eq {diagnostics : Array Diagnostic} {lines : List String}
    (h : List.Forall₂ (WrittenAs name source color) diagnostics.toList lines) :
    Outcome.renderAll name (LineMap.ofSource source) color diagnostics =
      .ok (String.join lines) := by
  rw [Outcome.renderAll, ← Array.foldlM_toList]
  generalize diagnostics.toList = pending at h
  have honto : ∀ written, pending.foldlM (fun written diagnostic => do
      return written ++ (← (diagnostic.inFile name).render (LineMap.ofSource source) color))
      written = (.ok (written ++ String.join lines) : Except Overflow String) := by
    induction h with
    | nil => exact fun _ => congrArg Except.ok String.append_empty.symm
    | cons hline _ ih =>
      intro written
      rw [List.foldlM_cons, hline, String.join_cons, ← String.append_assoc, ← ih]
      rfl
  exact (honto "").trans (congrArg Except.ok String.empty_append)

end ByteLexer
