import ByteLexer.Diagnostic.Rendering
import ByteLexer.Proofs.Text.Controls
import ByteLexer.Proofs.Text.Positions
import ByteLexer.Scan.Cause

/-!
# A diagnostic is one line

Without colour, what is written around the file and the text of a diagnostic are names,
numerals and marks. So the diagnostic is one line if no control character stands in
these two, and only then (`isLine_render_iff`).

The text of a cause holds none, whatever the source held (`noControl_text`). What stands
in a filled template stands in the template or in one of the arguments (`mem_fill`), the
templates are known, and an argument is a numeral or a character as it is shown.

**What it takes as given.** The diagnostic is written at all: where its line or its column
overflows there is no text to speak of. The name of the file is not shown as the characters of
a cause are, so what stands in it is written as it is.

**What it does not establish.** The texts that are looked at are those of causes and of the
message that a run was stopped. A diagnostic with other arguments can break its line by them,
as `fill` writes them as they are.
-/

namespace ByteLexer

/-! ## What a filled template is made of -/

namespace Template

variable {c : Char}

theorem mem_replaceFrom {pattern replacement text : List Char} {skip : Nat}
    (h : c ∈ replaceFrom pattern replacement skip text) : c ∈ replacement ∨ c ∈ text := by
  fun_induction replaceFrom pattern replacement skip text with
  | case1 => exact .inr h
  | case2 skip first rest ih => exact (ih h).imp_right (List.mem_cons_of_mem first)
  | case3 first rest _ ih =>
    obtain hreplaced | hrest := List.mem_append.1 h
    · exact .inl hreplaced
    · exact (ih hrest).imp_right (List.mem_cons_of_mem first)
  | case4 first rest _ ih =>
    obtain rfl | hrest := List.mem_cons.1 h
    · exact .inr List.mem_cons_self
    · exact (ih hrest).imp_right (List.mem_cons_of_mem first)

theorem mem_fillFrom {index : Nat} {text : List Char} {arguments : List (List Char)}
    (h : c ∈ fillFrom index text arguments) : c ∈ text ∨ ∃ argument ∈ arguments, c ∈ argument := by
  induction arguments generalizing index text with
  | nil => exact .inl h
  | cons argument arguments ih =>
    rw [List.exists_mem_cons_iff, or_left_comm]
    obtain hfilled | hlater := ih h
    · exact (mem_replaceFrom hfilled).imp_right .inl
    · exact .inr (.inr hlater)

/-- Nothing stands in a filled template but what comes from it or from an argument. -/
theorem mem_fill {template : String} {arguments : List String}
    (h : c ∈ (fill template arguments).toList) :
    c ∈ template.toList ∨ ∃ argument ∈ arguments, c ∈ argument.toList := by
  rw [fill, String.toList_ofList] at h
  obtain htemplate | ⟨_, hargument, hmem⟩ := mem_fillFrom h
  · exact .inl htemplate
  · obtain ⟨argument, hof, rfl⟩ := List.mem_map.1 hargument
    exact .inr ⟨argument, hof, hmem⟩

theorem noControl_fill {template : String} {arguments : List String}
    (htemplate : NoControl template.toList)
    (harguments : ∀ argument ∈ arguments, NoControl argument.toList) :
    NoControl (fill template arguments).toList := by
  intro c hc
  obtain hmem | ⟨argument, hargument, hmem⟩ := mem_fill hc
  · exact htemplate c hmem
  · exact harguments argument hargument c hmem

end Template

/-! ## The texts that are reported -/

namespace Cause

theorem noControl_template (cause : Cause) : NoControl cause.message.template.toList := by
  cases cause
  all_goals
    rw [message]
    decide

theorem noControl_arguments (cause : Cause) :
    ∀ argument ∈ cause.arguments, NoControl argument.toList := by
  cases cause with
  | unclosedQuote => exact List.forall_mem_nil _
  | strayCharacter character => exact List.forall_mem_singleton.2 (noControl_shown character)
  | malformedBytes _ length => simp [arguments]

/-- **No control character comes into the text of a cause**, be it one that the cause blames. -/
theorem noControl_text (cause : Cause) : NoControl cause.diagnostic.text.toList :=
  Template.noControl_fill cause.noControl_template cause.noControl_arguments

end Cause

theorem noControl_text_stoppedEarly :
    NoControl (Diagnostic.ofMessage .stoppedEarly []).text.toList := by
  have htemplate : NoControl Message.stoppedEarly.template.toList := by decide +kernel
  exact Template.noControl_fill htemplate (List.forall_mem_nil _)

/-! ## The line -/

theorem Position.noControl_display {position : Position} {text : String}
    (h : position.display = .ok text) : NoControl text.toList := by
  rw [toList_of_display h]
  simp [IsControl]

namespace Diagnostic

variable {diagnostic : Diagnostic}

theorem noControl_headingPart (diagnostic : Diagnostic) :
    NoControl (diagnostic.headingPart false).toList := by
  have hname : NoControl diagnostic.category.name.toList := by
    cases diagnostic.category <;> decide
  simp [headingPart, codeName, hname, IsControl]

/-- A location is the name of the file, with nothing behind it that holds a control character. -/
theorem exists_location_eq {lines : LineMap} {location : Option String}
    (h : diagnostic.location lines = .ok location) :
    ∃ behind : String, NoControl behind.toList ∧ location = diagnostic.file.map (· ++ behind) := by
  unfold Diagnostic.location at h
  split at h
  · rename_i file span hfile _
    cases hplace : (lines.position span.start).display with
    | error overflow =>
      rw [hplace] at h
      cases h
    | ok place =>
      rw [hplace] at h
      cases h
      refine ⟨":" ++ place, ?_, ?_⟩
      · simp [Position.noControl_display hplace, IsControl]
      · rw [hfile, Option.map_some, String.append_assoc]
  · rename_i file hfile _
    cases h
    exact ⟨"", noControl_nil, by rw [hfile, Option.map_some, String.append_empty]⟩
  · rename_i hfile
    cases h
    exact ⟨"", noControl_nil, by rw [hfile, Option.map_none]⟩

theorem noControl_locationPart_iff {lines : LineMap} {location : Option String}
    (h : diagnostic.location lines = .ok location) :
    NoControl (locationPart false location).toList ↔
      ∀ file ∈ diagnostic.file, NoControl file.toList := by
  obtain ⟨behind, hbehind, rfl⟩ := exists_location_eq h
  cases diagnostic.file with
  | none => simp [locationPart]
  | some file => simp [locationPart, hbehind, IsControl]

/-- **Without colour, a diagnostic is one line** if there is no control character in its text and
in the name of its file, and only then. The code, the category and the numerals of the place
hold none, and the line feed at the end is written once, so there is nothing else to ask. With
colour this is false of every diagnostic, as the colour is set by escapes. -/
theorem isLine_render_iff {lines : LineMap} {line : String}
    (h : diagnostic.render lines false = .ok line) :
    IsLine line ↔
      (∀ file ∈ diagnostic.file, NoControl file.toList) ∧ NoControl diagnostic.text.toList := by
  rw [render] at h
  cases hlocation : diagnostic.location lines with
  | error overflow =>
    rw [hlocation] at h
    cases h
  | ok location =>
    rw [hlocation] at h
    cases h
    rw [isLine_append_lineFeed]
    simp [noControl_locationPart_iff hlocation, noControl_headingPart, IsControl]

end Diagnostic

end ByteLexer
