import ByteLexer.Proofs.Scan.Blame
import ByteLexer.Proofs.Scan.Calls
import ByteLexer.Proofs.Scan.Spelling

/-!
# What the scanner accepts

A source is well formed when it can be cut into pieces, each of them a space
or a word of some kind, and any of them next to any other. The scanner accepts
these sources and no others (`accepts_iff`): their tokens are free of errors,
and no cause is ever kept.

The pieces of a cut need not be the tokens. An identifier with digits behind
it, or two of them, may be cut where the scanner goes on. What saves the cut is
that the scanner then takes whole pieces: where a word goes on with the first
byte of a piece it goes on with all of it (`WellFormed.dropWhile_continues`),
so what is left after a token is well formed again.

**What it does not establish.** Nothing is said of how many tokens there are or of what
they mean together; with this grammar, any pieces may stand next to each other. For the
tokens of pieces that are given, see `ByteLexer.Proofs.Scan.Layout`.
-/

namespace ByteLexer

/-- A space, or a word of some kind. -/
inductive IsPiece : List UInt8 → Prop
  | space {byte : UInt8} (hspace : ByteClass.isSpace byte = true) : IsPiece [byte]
  | word {kind : Kind} {bytes : List UInt8} (hword : Spelling kind bytes) : IsPiece bytes

/-- The bytes are some pieces, one after the other. The cut is not unique, and nothing in
this asks for the longest pieces or for a space between them. -/
def WellFormed (bytes : List UInt8) : Prop :=
  ∃ pieces : List (List UInt8), (∀ piece ∈ pieces, IsPiece piece) ∧ bytes = pieces.flatten

namespace WellFormed

variable {bytes : List UInt8}

theorem nil : WellFormed [] :=
  ⟨[], List.forall_mem_nil _, rfl⟩

theorem cons {piece : List UInt8} (hpiece : IsPiece piece) (h : WellFormed bytes) :
    WellFormed (piece ++ bytes) := by
  obtain ⟨pieces, hpieces, rfl⟩ := h
  exact ⟨piece :: pieces, List.forall_mem_cons.2 ⟨hpiece, hpieces⟩, rfl⟩

/-- Spaces at the front are pieces. -/
theorem of_dropWhile_isSpace (h : WellFormed (bytes.dropWhile ByteClass.isSpace)) :
    WellFormed bytes := by
  induction bytes with
  | nil => exact nil
  | cons byte bytes ih =>
    cases hbyte : ByteClass.isSpace byte with
    | true =>
      rw [List.dropWhile_cons_of_pos hbyte] at h
      exact (cons (.space hbyte) (ih h) : WellFormed ([byte] ++ bytes))
    | false =>
      rw [List.dropWhile_cons_of_neg (Bool.eq_false_iff.1 hbyte)] at h
      exact h

/-- Where a class has all of a piece in it or not even its first byte,
dropping the class drops whole pieces. -/
theorem dropWhile {inClass : UInt8 → Bool}
    (hclass : ∀ piece, IsPiece piece → (∀ byte ∈ piece, inClass byte = true) ∨
      ∃ first more, piece = first :: more ∧ inClass first = false)
    (h : WellFormed bytes) : WellFormed (bytes.dropWhile inClass) := by
  obtain ⟨pieces, hpieces, rfl⟩ := h
  induction pieces with
  | nil => exact nil
  | cons piece pieces ih =>
    obtain ⟨hpiece, hrest⟩ := List.forall_mem_cons.1 hpieces
    rw [List.flatten_cons]
    -- a piece is dropped as a whole, or it is where the dropping ends
    obtain hall | ⟨first, more, rfl, hfirst⟩ := hclass piece hpiece
    · rw [List.dropWhile_append_of_pos hall]
      exact ih hrest
    · rw [List.cons_append, List.dropWhile_cons_of_neg (Bool.eq_false_iff.1 hfirst)]
      exact cons hpiece ⟨pieces, hrest, rfl⟩

/-- A word goes on over whole pieces. -/
theorem dropWhile_continues (h : WellFormed bytes) (kind : Kind) :
    WellFormed (bytes.dropWhile kind.continues) := by
  refine h.dropWhile fun piece hpiece => ?_
  cases hpiece with
  | space hspace => exact .inr ⟨_, [], rfl, Kind.not_continues_of_isSpace hspace⟩
  | @word other piece hword =>
    cases hjoin : kind.joins other with
    | true => exact .inl (hword.all_continues hjoin)
    | false =>
      obtain ⟨first, more, rfl⟩ := List.exists_cons_of_ne_nil hword.ne_nil
      exact .inr ⟨first, more, rfl, (hword.continues_eq kind).trans hjoin⟩

theorem dropWhile_isSpace (h : WellFormed bytes) :
    WellFormed (bytes.dropWhile ByteClass.isSpace) := by
  refine h.dropWhile fun piece hpiece => ?_
  cases hpiece with
  | space hspace => exact .inl (List.forall_mem_singleton.2 hspace)
  | word hword =>
    obtain ⟨first, more, rfl⟩ := List.exists_cons_of_ne_nil hword.ne_nil
    exact .inr ⟨first, more, rfl, hword.not_isSpace⟩

/-- What starts with no space starts with a word. -/
theorem exists_word {first : UInt8} {rest : List UInt8} (h : WellFormed (first :: rest))
    (hspace : ByteClass.isSpace first = false) :
    ∃ kind more tail, Spelling kind (first :: more) ∧ rest = more ++ tail ∧ WellFormed tail := by
  obtain ⟨pieces, hpieces, hbytes⟩ := h
  cases pieces with
  | nil => cases hbytes
  | cons piece pieces =>
    obtain ⟨hpiece, hrest⟩ := List.forall_mem_cons.1 hpieces
    rw [List.flatten_cons] at hbytes
    cases hpiece with
    | space hbyte =>
      obtain rfl := (List.cons.inj hbytes).1
      rw [hspace] at hbyte
      cases hbyte
    | word hword =>
      obtain ⟨other, more, rfl⟩ := List.exists_cons_of_ne_nil hword.ne_nil
      obtain ⟨rfl, hmore⟩ := List.cons.inj hbytes
      exact ⟨_, more, _, hword, hmore, pieces, hrest, rfl⟩

end WellFormed

/-! ## Tokens of well-formed bytes -/

/-- Well-formed bytes have no error among their tokens. -/
theorem WellFormed.isError_lexFrom {bytes : List UInt8} (h : WellFormed bytes) (offset : Nat) :
    ∀ token ∈ lexFrom offset bytes, token.isError = false := by
  induction hn : bytes.length using Nat.strong_induction_on generalizing offset bytes with
  | _ n ih =>
    subst hn
    have hspaces : ∀ byte ∈ bytes.takeWhile ByteClass.isSpace, ByteClass.isSpace byte = true :=
      List.all_eq_true.1 List.all_takeWhile
    rw [← List.takeWhile_append_dropWhile (p := ByteClass.isSpace) (l := bytes),
      lexFrom_append_spaces offset hspaces]
    cases hrest : bytes.dropWhile ByteClass.isSpace with
    | nil =>
      rw [lexFrom_of_nil List.dropWhile_nil]
      exact List.forall_mem_singleton.2 rfl
    | cons first rest =>
      have hdrop := hrest ▸ h.dropWhile_isSpace
      obtain ⟨kind, more, tail, hword, rfl, htail⟩ :=
        hdrop.exists_word (not_of_dropWhile_eq_cons hrest)
      have hshort : (tail.dropWhile kind.continues).length < bytes.length := by
        have hle := (List.dropWhile_suffix (p := ByteClass.isSpace) (l := bytes)).length_le
        have hle' := (List.dropWhile_suffix (p := kind.continues) (l := tail)).length_le
        rw [hrest, List.length_cons, List.length_append] at hle
        omega
      rw [← List.cons_append, lexFrom_append_word _ hword]
      refine List.forall_mem_cons.2 ⟨?_, ih _ hshort (htail.dropWhile_continues kind) _ rfl⟩
      exact (Bool.or_eq_false_iff.1 hword.not_isReserved).1

namespace Scanner

variable {scanner : Scanner}

/-- What a run takes without an error is well formed. -/
theorem wellFormed_of_calls (h : scanner.cursor.ReadAhead)
    (hcalls : ∀ call ∈ scanner.calls, call.isError = false) : WellFormed scanner.rest := by
  fun_induction calls scanner with
  | case1 scanner hend =>
    apply WellFormed.of_dropWhile_isSpace
    rw [(isEndOfInput_next_iff h).1 hend]
    exact .nil
  | case2 scanner hend ih =>
    obtain ⟨hcall, hcalls⟩ := List.forall_mem_cons.1 hcalls
    apply WellFormed.of_dropWhile_isSpace
    rcases next_spelling h (mt (isEndOfInput_next_iff h).2 hend) with
      ⟨kind, word, hword, hrest, -⟩ | ⟨bad, -, -, htoken, -⟩
    · rw [hrest]
      exact .cons (.word hword) (ih (readAhead_next h) hcalls)
    · rw [Call.isError, call, htoken] at hcall
      cases hcall

theorem isError_calls_iff (h : scanner.cursor.ReadAhead) :
    (∀ token ∈ scanner.calls.map Call.token, token.isError = false) ↔
      ∀ n, (scanner.token n).isError = false := by
  constructor
  · intro hall n
    exact hall _ (token_mem_calls h n)
  · intro hall token htoken
    obtain ⟨call, hcall, rfl⟩ := List.mem_map.1 htoken
    obtain ⟨n, rfl⟩ := exists_eq_call_after hcall
    exact hall n

end Scanner

/-- **The scanner accepts exactly the well-formed sources.** The tokens of a
source are free of errors if and only if it is some pieces, one after the
other, and if and only if no number of calls leaves a cause behind. One direction takes
any cut and keeps it a cut while words are taken off the front; in the other, the tokens
and the spaces between them are the cut. -/
theorem accepts_iff (source : ByteArray) :
    ((∀ token ∈ tokenize source, token.isError = false) ↔ WellFormed source.data.toList) ∧
      ((∀ token ∈ tokenize source, token.isError = false) ↔
        ∀ n, ((Scanner.start source).after n).lastCause = none) := by
  have h := Scanner.readAhead_start source
  rw [Scanner.tokenize_eq_map_calls]
  constructor
  · constructor
    · intro hall
      have hwhole := Scanner.wellFormed_of_calls h (List.forall_mem_map.1 hall)
      rw [Scanner.rest_start] at hwhole
      exact hwhole
    · intro hwhole
      rw [Scanner.map_token_calls_start]
      exact hwhole.isError_lexFrom 0
  · rw [Scanner.isError_calls_iff h]
    constructor
    · intro hall n
      exact (Scanner.lastCause_eq_none_iff h rfl n).2 fun i _ => hall i
    · intro hnone n
      exact (Scanner.lastCause_eq_none_iff h rfl (n + 1)).1 (hnone _) n (Nat.lt_succ_self n)

end ByteLexer
