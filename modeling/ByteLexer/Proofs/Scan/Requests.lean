import Mathlib.Data.List.Basic
import Mathlib.Data.List.Induction
import ByteLexer.Proofs.Scan.Calls

/-!
# Requests in any order

A scanner answers two requests: for the next token, and for the next member of its
sequence, which ends once it has given the end of the source. Both move one cursor,
and only the second looks at the mark that the sequence has ended.

So a request either hands out the token that any other would have handed out in its
place, or it does nothing at all (`answer_cases`). After requests in any order a
scanner is therefore known by the number of tokens that it has handed out and by
that mark (`exists_after`), and the mark is set by exactly one event: the sequence
has given the end of the source (`finished_through_iff`).

The tokens that are handed out are those of the source, the last of them over and
over (`endless`). Once it has been handed out, a call changes nothing
(`next_of_rest_eq_nil`). `interleaved` puts all of this together.

**What it does not establish.** Requests are made one at a time, and of one scanner: two
scanners over one source know nothing of each other, and nothing is said of them. What
the tokens are is settled elsewhere; here it is said only which of them comes when.
-/

namespace ByteLexer

/-- What a scanner can be asked for: a token, or the next member of its sequence. -/
inductive Request where
  | next
  | yield
  deriving DecidableEq, Repr

/-- The tokens of a source by number, the last of them over and over. -/
def endless (source : ByteArray) (i : Nat) : Option Token :=
  (tokenize source)[min i ((tokenize source).length - 1)]?

namespace Scanner

/-- The answer to a request, and the scanner after it. -/
def answer (scanner : Scanner) : Request → Option Token × Scanner
  | .next => (some scanner.next.1, scanner.next.2)
  | .yield => scanner.yield?

/-- The scanner after some requests, one after the other. -/
def through (scanner : Scanner) (requests : List Request) : Scanner :=
  requests.foldl (fun scanner request => (scanner.answer request).2) scanner

/-- The tokens that are handed out in answer to some requests. -/
def handedOut (scanner : Scanner) : List Request → List Token
  | [] => []
  | request :: requests =>
    (scanner.answer request).1.toList ++ (scanner.answer request).2.handedOut requests

/-- Some request for a member of the sequence has been answered with the end of the source.
It is a fact about the answers, and not about the mark that the scanner keeps; that the
two are the same is `finished_through_iff`. -/
def HasEnded (scanner : Scanner) (requests : List Request) : Prop :=
  ∃ before behind token, requests = before ++ .yield :: behind ∧
    ((scanner.through before).answer .yield).1 = some token ∧ token.isEndOfInput = true

/-- Some requests lead to the scanner from the beginning of a source. Most of what is
proved of scanners is proved of these, and there are no others that a program can get
hold of, since a scanner is made at the beginning of a source and changed by requests only. -/
def Reachable (source : ByteArray) (scanner : Scanner) : Prop :=
  ∃ requests, (start source).through requests = scanner

variable {scanner : Scanner}

/-! ## One request -/

/-- The mark that the sequence has ended has no part in a call. -/
theorem next_with_finished (scanner : Scanner) (finished : Bool) :
    { scanner with finished := finished }.next =
      (scanner.next.1, { scanner.next.2 with finished := finished }) := by
  unfold next
  dsimp only
  split <;> rfl

/-- All that a request can do: nothing, where the sequence has ended, or what a call does. -/
theorem answer_cases (scanner : Scanner) (request : Request) :
    (request = .yield ∧ scanner.finished = true ∧ scanner.answer request = (none, scanner)) ∨
    ((request = .next ∨ scanner.finished = false) ∧
      (scanner.answer request).1 = some scanner.next.1 ∧
      (scanner.answer request).2 = { scanner.next.2 with
        finished := scanner.finished || request = .yield && scanner.next.1.isEndOfInput }) := by
  cases request with
  | next =>
    have hmark : { scanner.next.2 with finished := scanner.finished } = scanner.next.2 := by
      rw [← finished_next]
    refine .inr ⟨.inl rfl, rfl, ?_⟩
    simp [answer, hmark]
  | yield =>
    cases hfinished : scanner.finished with
    | true => exact .inl ⟨rfl, rfl, if_pos hfinished⟩
    | false =>
      right
      have hyield : scanner.answer .yield = (some scanner.next.1,
          { scanner.next.2 with finished := scanner.next.1.isEndOfInput }) := by
        rw [answer, yield?, hfinished]
        rfl
      rw [hyield]
      exact ⟨.inr rfl, rfl, by simp⟩

theorem answer_eq_none_iff {request : Request} :
    (scanner.answer request).1 = none ↔ request = .yield ∧ scanner.finished = true := by
  rcases answer_cases scanner request with ⟨rfl, hfinished, hanswer⟩ | ⟨hopen, htoken, -⟩
  · rw [hanswer]
    exact iff_of_true rfl ⟨rfl, hfinished⟩
  · rw [htoken]
    refine iff_of_false (Option.some_ne_none _) ?_
    rintro ⟨rfl, hfinished⟩
    obtain hnext | hnot := hopen
    · cases hnext
    · rw [hfinished] at hnot
      cases hnot

/-- A request leaves a cursor that has read ahead, over the same source. -/
theorem readAhead_answer (h : scanner.cursor.ReadAhead) (request : Request) :
    (scanner.answer request).2.cursor.ReadAhead ∧
      (scanner.answer request).2.source = scanner.source := by
  rcases answer_cases scanner request with ⟨-, -, hanswer⟩ | ⟨-, -, hafter⟩
  · rw [hanswer]
    exact ⟨h, rfl⟩
  · rw [hafter]
    exact ⟨readAhead_next h, source_next h⟩

/-! ## Many requests -/

theorem through_concat (scanner : Scanner) (requests : List Request) (request : Request) :
    scanner.through (requests ++ [request]) = ((scanner.through requests).answer request).2 :=
  List.foldl_concat _ _ _ _

theorem handedOut_concat (scanner : Scanner) (requests : List Request) (request : Request) :
    scanner.handedOut (requests ++ [request]) =
      scanner.handedOut requests ++ ((scanner.through requests).answer request).1.toList := by
  induction requests generalizing scanner with
  | nil => exact List.append_nil _
  | cons first requests ih =>
    rw [List.cons_append, handedOut, ih, handedOut, List.append_assoc]
    rfl

/-- After some requests the scanner is the one after so many calls, but for the
mark, and these calls have handed out what was handed out. -/
theorem exists_after (scanner : Scanner) (requests : List Request) :
    ∃ n, scanner.handedOut requests = (List.range n).map scanner.token ∧
      scanner.through requests =
        { scanner.after n with finished := (scanner.through requests).finished } := by
  -- from the last request back, as that is where a run of requests grows
  induction requests using List.reverseRecOn with
  | nil => exact ⟨0, rfl, rfl⟩
  | append_singleton requests request ih =>
    obtain ⟨n, htokens, hthrough⟩ := ih
    rw [handedOut_concat, through_concat]
    rcases answer_cases (scanner.through requests) request with
      ⟨-, -, hanswer⟩ | ⟨-, htoken, hafter⟩
    · rw [hanswer]
      exact ⟨n, (List.append_nil _).trans htokens, hthrough⟩
    · have hnext := next_with_finished (scanner.after n) (scanner.through requests).finished
      rw [← hthrough] at hnext
      refine ⟨n + 1, ?_, ?_⟩
      · rw [htoken, htokens, hnext, List.range_succ, List.map_append]
        rfl
      · rw [hafter, hnext]
        rfl

theorem hasEnded_concat_iff {requests : List Request} {request : Request} :
    scanner.HasEnded (requests ++ [request]) ↔ scanner.HasEnded requests ∨
      request = .yield ∧ ∃ token, ((scanner.through requests).answer .yield).1 = some token ∧
        token.isEndOfInput = true := by
  constructor
  · rintro ⟨before, behind, token, hsplit, htoken, hend⟩
    obtain rfl | ⟨behind, last, rfl⟩ := List.eq_nil_or_concat' behind
    · obtain ⟨rfl, hlast⟩ := List.append_inj' hsplit rfl
      exact .inr ⟨List.singleton_inj.1 hlast, token, htoken, hend⟩
    · rw [← List.cons_append, ← List.append_assoc] at hsplit
      exact .inl ⟨before, behind, token, (List.append_inj' hsplit rfl).1, htoken, hend⟩
  · rintro (⟨before, behind, token, rfl, htoken, hend⟩ | ⟨rfl, token, htoken, hend⟩)
    · exact ⟨before, behind ++ [request], token, List.append_assoc _ _ _, htoken, hend⟩
    · exact ⟨requests, [], token, rfl, htoken, hend⟩

/-- The mark is set exactly by giving the end of the source as a member of the sequence. -/
theorem finished_through_iff (h : scanner.finished = false) (requests : List Request) :
    (scanner.through requests).finished = true ↔ scanner.HasEnded requests := by
  induction requests using List.reverseRecOn with
  | nil =>
    rw [through, List.foldl_nil, h]
    refine iff_of_false Bool.false_ne_true ?_
    rintro ⟨before, behind, token, hsplit, -⟩
    exact List.append_ne_nil_of_right_ne_nil before (List.cons_ne_nil _ behind) hsplit.symm
  | append_singleton requests request ih =>
    rw [hasEnded_concat_iff, ← ih, through_concat]
    rcases answer_cases (scanner.through requests) request with
      ⟨rfl, hfinished, hanswer⟩ | ⟨hopen, htoken, hafter⟩
    · rw [hanswer]
      exact iff_of_true hfinished (.inl hfinished)
    · rw [hafter, Bool.or_eq_true, Bool.and_eq_true, decide_eq_true_eq]
      refine or_congr_right (and_congr_right ?_)
      rintro rfl
      rw [htoken]
      simp

/-! ## The end of the source -/

/-- Where nothing is left, a call hands out the end of the source and changes nothing. -/
theorem next_of_rest_eq_nil (h : scanner.cursor.ReadAhead) (hrest : scanner.rest = []) :
    scanner.next = (.endOfInput scanner.source.size, scanner) := by
  have hposition := (h.of_rest_eq_nil hrest).2.1
  have hcursor : scanner.cursor.moveTo scanner.source.size = scanner.cursor := by
    rw [Cursor.ReadAhead, hposition] at h
    exact h
  rw [next_eq_of_nil h (by rw [hrest]; rfl), hcursor]

theorem rest_next_of_isEndOfInput (h : scanner.cursor.ReadAhead)
    (hend : scanner.next.1.isEndOfInput = true) : scanner.next.2.rest = [] := by
  rw [next_eq_of_nil h ((isEndOfInput_next_iff h).1 hend)]
  exact (Cursor.rest_moveTo _ _).trans (bytesFrom_of_le (Nat.le_refl _))

/-- Once the end of the source has been handed out, nothing is left. -/
theorem rest_after_of_isEndOfInput (h : scanner.cursor.ReadAhead) {i n : Nat} (hi : i < n)
    (hend : (scanner.token i).isEndOfInput = true) : (scanner.after n).rest = [] := by
  induction n with
  | zero => exact absurd hi (Nat.not_lt_zero i)
  | succ n ih =>
    rcases Nat.lt_succ_iff_lt_or_eq.1 hi with hlt | rfl
    · have hnext := next_of_rest_eq_nil (readAhead_after h n) (ih hlt)
      rw [after, hnext]
      exact ih hlt
    · exact rest_next_of_isEndOfInput (readAhead_after h i) hend

theorem token_of_isEndOfInput (h : scanner.cursor.ReadAhead)
    (hend : scanner.next.1.isEndOfInput = true) (i : Nat) : scanner.token i = scanner.next.1 := by
  induction i generalizing scanner with
  | zero => rfl
  | succ i ih =>
    have hagain := next_next_of_isEndOfInput h hend
    rw [token_succ, ih (readAhead_next h) (hagain ▸ hend), hagain]

/-- A run has the tokens that are handed out by number, and then its last token for ever. -/
theorem getElem?_map_token_calls (h : scanner.cursor.ReadAhead) (i : Nat) :
    (scanner.calls.map Call.token)[min i ((scanner.calls.map Call.token).length - 1)]? =
      some (scanner.token i) := by
  fun_induction calls scanner generalizing i with
  | case1 scanner hend =>
    rw [token_of_isEndOfInput h hend i]
    simp [call]
  | case2 scanner hend ih =>
    have hpos : 0 < (scanner.next.2.calls.map Call.token).length :=
      List.length_pos_of_mem (token_mem_calls (readAhead_next h) 0)
    rw [List.map_cons, List.length_cons, Nat.add_sub_cancel]
    cases i with
    | zero => simp [call, token, after]
    | succ i =>
      have hmin : min (i + 1) (scanner.next.2.calls.map Call.token).length =
          min i ((scanner.next.2.calls.map Call.token).length - 1) + 1 := by
        omega
      rw [hmin, List.getElem?_cons_succ, ih (readAhead_next h) i, token_succ]

theorem endless_eq (source : ByteArray) (i : Nat) :
    endless source i = some ((start source).token i) := by
  rw [endless, tokenize_eq_map_calls]
  exact getElem?_map_token_calls (readAhead_start source) i

theorem getLast?_tokenize (source : ByteArray) :
    (tokenize source).getLast? = some (.endOfInput source.size) := by
  obtain ⟨before, last, hcalls, hend⟩ := (start source).exists_calls_eq_append
  have hlast : last ∈ (start source).calls := by
    rw [hcalls]
    exact List.mem_append_right _ (List.mem_singleton_self last)
  obtain ⟨n, rfl⟩ := exists_eq_call_after hlast
  have htoken : ((start source).after n).call.token = .endOfInput source.size := by
    have h := readAhead_start source
    rw [call, next_eq_of_nil (readAhead_after h n)
      ((isEndOfInput_next_iff (readAhead_after h n)).1 hend), source_after h n, source_start]
  rw [tokenize_eq_map_calls, hcalls, List.map_append, List.map_singleton, List.getLast?_concat,
    htoken]

/-! ## Requests from the beginning of a source -/

section

variable {source : ByteArray}

theorem Reachable.start (source : ByteArray) : Reachable source (start source) :=
  ⟨[], rfl⟩

/-- A scanner that is reached is one after some calls, but for the mark. -/
theorem Reachable.exists_after (h : Reachable source scanner) :
    ∃ n, scanner = { (Scanner.start source).after n with finished := scanner.finished } := by
  obtain ⟨requests, rfl⟩ := h
  obtain ⟨n, -, hthrough⟩ := Scanner.exists_after (Scanner.start source) requests
  exact ⟨n, hthrough⟩

theorem Reachable.readAhead (h : Reachable source scanner) : scanner.cursor.ReadAhead := by
  obtain ⟨n, hscanner⟩ := h.exists_after
  rw [hscanner]
  exact readAhead_after (readAhead_start source) n

theorem Reachable.source_eq (h : Reachable source scanner) : scanner.source = source := by
  obtain ⟨n, hscanner⟩ := h.exists_after
  rw [hscanner]
  exact (source_after (readAhead_start source) n).trans (source_start source)

/-- Where the end of the source has been handed out, a call changes nothing. -/
theorem next_through_of_isEndOfInput {requests : List Request} {token : Token}
    (htoken : token ∈ (start source).handedOut requests) (hend : token.isEndOfInput = true) :
    ((start source).through requests).next =
        (.endOfInput source.size, (start source).through requests) ∧
      ((start source).through requests).offset = source.size := by
  have hreachable : Reachable source ((start source).through requests) := ⟨requests, rfl⟩
  obtain ⟨n, htokens, hthrough⟩ := exists_after (start source) requests
  rw [htokens] at htoken
  obtain ⟨i, hi, rfl⟩ := List.mem_map.1 htoken
  have hrest : ((start source).through requests).rest = [] := by
    rw [hthrough]
    exact rest_after_of_isEndOfInput (readAhead_start source) (List.mem_range.1 hi) hend
  have hnext := next_of_rest_eq_nil hreachable.readAhead hrest
  have hoffset : ((start source).through requests).offset =
      ((start source).through requests).source.size :=
    (hreachable.readAhead.of_rest_eq_nil hrest).2.1
  rw [hreachable.source_eq] at hnext hoffset
  exact ⟨hnext, hoffset⟩

/-- Tokens that are handed out in answer to requests are those of the source. -/
theorem getElem?_handedOut {requests : List Request} {i : Nat}
    (h : i < ((start source).handedOut requests).length) :
    ((start source).handedOut requests)[i]? = endless source i := by
  obtain ⟨n, htokens, -⟩ := exists_after (start source) requests
  rw [htokens, List.length_map, List.length_range] at h
  rw [htokens, endless_eq, List.getElem?_map, List.getElem?_range h, Option.map_some]

/-- How far requests have led is settled by how many tokens they were answered with. -/
theorem through_eq_of_length_eq {requests others : List Request}
    (h : ((start source).handedOut others).length = ((start source).handedOut requests).length) :
    ((start source).through others).cursor = ((start source).through requests).cursor ∧
      ((start source).through others).lastCause =
        ((start source).through requests).lastCause := by
  obtain ⟨n, htokens, hthrough⟩ := exists_after (start source) requests
  obtain ⟨m, hothers, hother⟩ := exists_after (start source) others
  rw [htokens, hothers, List.length_map, List.length_map, List.length_range, List.length_range]
    at h
  rw [hthrough, hother, h]
  exact ⟨rfl, rfl⟩

/-- What holds when some requests have been made of a scanner at the beginning of a
source, and another one comes next. -/
structure Interleaved (source : ByteArray) (requests : List Request) (request : Request) :
    Prop where
  /-- The last token of the source, the one that is repeated, is its end. -/
  last : (tokenize source).getLast? = some (.endOfInput source.size)
  /-- The tokens handed out are those of the source in order, whatever each was asked for as. -/
  tokens : ∀ i < ((start source).handedOut requests).length,
    ((start source).handedOut requests)[i]? = endless source i
  /-- No token is handed out exactly to a request for a member of the sequence
  after the sequence has given the end of the source. -/
  none_iff : (((start source).through requests).answer request).1 = none ↔
    request = .yield ∧ (start source).HasEnded requests
  /-- Such a request changes nothing. -/
  unchanged : (((start source).through requests).answer request).1 = none →
    (((start source).through requests).answer request).2 = (start source).through requests
  /-- An end that was handed out to calls alone does not end the sequence, which
  still gives it, once. -/
  once : (∃ token ∈ (start source).handedOut requests, token.isEndOfInput = true) →
    ¬(start source).HasEnded requests →
    (((start source).through requests).answer .yield).1 = some (.endOfInput source.size) ∧
      ((((start source).through requests).answer .yield).2.answer .yield).1 = none
  /-- After the end has been handed out, a call hands it out again and changes nothing. -/
  again : (∃ token ∈ (start source).handedOut requests, token.isEndOfInput = true) →
    ((start source).through requests).next =
        (.endOfInput source.size, (start source).through requests) ∧
      ((start source).through requests).offset = source.size
  /-- Only the number of tokens handed out matters for where the scanner stands
  and for the cause that it keeps. -/
  counted : ∀ others : List Request,
    ((start source).handedOut others).length = ((start source).handedOut requests).length →
    ((start source).through others).cursor = ((start source).through requests).cursor ∧
      ((start source).through others).lastCause = ((start source).through requests).lastCause

/-- **Requests may be made in any order**: whatever it is asked for, a scanner hands
out the tokens of its source one after the other, and its end over and over. A request is
refused only as a member of a sequence that has given the end, and then nothing changes;
everything else depends on how many tokens were handed out, and not on what each was asked
for as (`answer_cases`, `exists_after`). -/
theorem interleaved (source : ByteArray) (requests : List Request) (request : Request) :
    Interleaved source requests request where
  last := getLast?_tokenize source
  tokens _ hi := getElem?_handedOut hi
  none_iff := by
    rw [answer_eq_none_iff, finished_through_iff rfl]
  unchanged hnone := by
    obtain ⟨rfl, hfinished⟩ := answer_eq_none_iff.1 hnone
    rw [answer, yield?, if_pos hfinished]
  once := by
    rintro ⟨token, htoken, hend⟩ hnot
    have hnext := (next_through_of_isEndOfInput htoken hend).1
    have hopen := Bool.eq_false_iff.2 (mt (finished_through_iff rfl requests).1 hnot)
    have hyield : ((start source).through requests).answer .yield =
        (some (.endOfInput source.size),
          { (start source).through requests with finished := true }) := by
      rw [answer, yield?, hopen, hnext]
      rfl
    rw [hyield]
    exact ⟨rfl, rfl⟩
  again := by
    rintro ⟨token, htoken, hend⟩
    exact next_through_of_isEndOfInput htoken hend
  counted _ hlength := through_eq_of_length_eq hlength

end

end Scanner

end ByteLexer
