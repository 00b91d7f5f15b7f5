import ByteLexer.Proofs.Scan.Blame
import ByteLexer.Proofs.Scan.Calls
import Mathlib.Data.List.Forall2

/-!
# The causes of a run

Each call of a run that hands out an error keeps a cause for it, and the cause is
true (`exists_cause_of_mem_calls`). What it points at lies among the bytes that the
call took (`Blamed.span_inside`), and so inside the source.

A call that hands out no error has no cause of its own (`Call.cause?_cases`), so the
causes of some calls are one for each error among them (`forall₂_filterMap`).

**What it does not establish.** A cause points at some of the bytes that its error took,
and not at all of them: of a string that is closed but malformed, what is pointed at lies
between the marks. That the causes are read before they are replaced is up to whoever
makes the calls (`ByteLexer.Proofs.Command.Accounting`).
-/

namespace ByteLexer

/-- What a list holds for some of its members, one for each of those that pass a test. -/
theorem forall₂_filterMap {α β : Type} {test : α → Bool} {held : α → Option β}
    {related : α → β → Prop} {members : List α}
    (h : ∀ a ∈ members, test a = false ∧ held a = none ∨
      test a = true ∧ ∃ b, held a = some b ∧ related a b) :
    List.Forall₂ related (members.filter test) (members.filterMap held) := by
  induction members with
  | nil => exact .nil
  | cons a members ih =>
    obtain ⟨ha, hmembers⟩ := List.forall_mem_cons.1 h
    obtain ⟨hfails, hnone⟩ | ⟨hpasses, b, hsome, hrelated⟩ := ha
    · rw [List.filter_cons_of_neg (Bool.eq_false_iff.1 hfails), List.filterMap_cons_none hnone]
      exact ih hmembers
    · rw [List.filter_cons_of_pos hpasses, List.filterMap_cons_some hsome]
      exact .cons hrelated (ih hmembers)

/-- The cause of a call is the one that is kept behind it, if it hands out an error. -/
theorem Call.cause?_cases (call : Call) : call.isError = false ∧ call.cause? = none ∨
    call.isError = true ∧ call.cause? = call.after.lastCause := by
  unfold cause?
  cases call.isError with
  | false => exact .inl ⟨rfl, rfl⟩
  | true => exact .inr ⟨rfl, rfl⟩

/-- What a cause points at is some bytes between the start of the error and the
place where scanning goes on. There is at least one of them, so that a reader is never
shown an empty place, and none belongs to another token. -/
theorem Blamed.span_inside {source : ByteArray} {start stop : Nat} {cause : Cause}
    (h : Blamed source start cause stop) :
    start ≤ cause.span.start ∧ 0 < cause.span.length ∧
      cause.span.start + cause.span.length ≤ stop := by
  have hstart := h.lt
  cases h with
  | unclosedQuote => exact ⟨Nat.le_refl _, Nat.one_pos, hstart⟩
  | @strayCharacter c _ hinside hchar =>
    have hsize := congrArg ByteArray.size hchar
    have hpos := c.utf8Size_pos
    rw [ByteArray.size_extract, List.size_toByteArray, String.length_utf8EncodeChar] at hsize
    refine ⟨Nat.le_refl _, hpos, ?_⟩
    show start + c.utf8Size ≤ stop
    omega
  | malformedBytes => exact ⟨Nat.le_refl _, Utf8.malformedLength_pos _, Nat.le_refl _⟩
  | malformedQuote _ _ _ _ hinside _ hend =>
    exact ⟨Nat.le_of_lt hinside, Utf8.malformedLength_pos _, Nat.le_succ_of_le hend⟩

/-- Nothing has been read exactly at the end of the source. -/
theorem Cursor.ReadAhead.isExhausted_eq {cursor : Cursor} (h : cursor.ReadAhead) :
    cursor.isExhausted = decide (cursor.source.size ≤ cursor.position) := by
  by_cases hle : cursor.source.size ≤ cursor.position
  · rw [isExhausted, (h.of_rest_eq_nil (bytesFrom_of_le hle)).1, decide_eq_true hle]
    rfl
  · cases hread : Utf8.readAt cursor.source cursor.position with
    | some step =>
      rw [isExhausted, (h.of_readAt hread).1, decide_eq_false hle]
      rfl
    | none =>
      rw [Utf8.readAt, dif_pos (Nat.not_le.1 hle)] at hread
      dsimp only at hread
      split at hread <;> cases hread

namespace Scanner

variable {scanner : Scanner} {call : Call}

theorem readAhead_of_mem_calls (h : scanner.cursor.ReadAhead) (hcall : call ∈ scanner.calls) :
    call.after.cursor.ReadAhead ∧ call.after.source = scanner.source := by
  obtain ⟨n, rfl⟩ := exists_eq_call_after hcall
  exact ⟨readAhead_after h (n + 1), source_after h (n + 1)⟩

theorem isExhausted_of_mem_calls (h : scanner.cursor.ReadAhead) (hcall : call ∈ scanner.calls) :
    call.after.isExhausted = decide (scanner.source.size ≤ call.after.offset) := by
  obtain ⟨hafter, hsource⟩ := readAhead_of_mem_calls h hcall
  rw [← hsource]
  exact hafter.isExhausted_eq

/-- A call that hands out an error keeps a true cause of it. -/
theorem exists_cause_of_mem_calls (h : scanner.cursor.ReadAhead) (hcall : call ∈ scanner.calls)
    (herror : call.isError = true) :
    ∃ cause, call.after.lastCause = some cause ∧
      Blamed scanner.source call.token.offset cause call.after.offset := by
  obtain ⟨n, rfl⟩ := exists_eq_call_after hcall
  obtain ⟨hnot, -⟩ | ⟨cause, -, hkept, hblamed⟩ := next_blamed (readAhead_after h n)
  · exact absurd herror (Bool.eq_false_iff.1 hnot)
  · rw [source_after h n] at hblamed
    exact ⟨cause, hkept, hblamed⟩

/-- The bytes that a cause points at are bytes of the source. -/
theorem span_inside_of_mem_calls (h : scanner.cursor.ReadAhead) (hcall : call ∈ scanner.calls)
    (herror : call.isError = true) :
    ∃ cause, call.after.lastCause = some cause ∧ 0 < cause.span.length ∧
      cause.span.start + cause.span.length ≤ scanner.source.size := by
  obtain ⟨cause, hkept, hblamed⟩ := exists_cause_of_mem_calls h hcall herror
  obtain ⟨hafter, hsource⟩ := readAhead_of_mem_calls h hcall
  obtain ⟨-, hpos, hstop⟩ := hblamed.span_inside
  exact ⟨cause, hkept, hpos, Nat.le_trans hstop (hsource ▸ hafter.position_le)⟩

end Scanner

end ByteLexer
