import Mathlib.Data.Nat.Find
import ByteLexer.Proofs.Utf8.Encoding

/-!
# Malformed fronts

Where a list of bytes begins with no character, this many bytes of it are
passed over as malformed: the longest front of the list that is also a front
of some encoding, and one byte where that is empty (`malformedLength`). Both
notions speak of the standard library's encodings alone.

`IsFront` is decided by counting what fits (`isFront_cons_iff`), which also
gives the longest front behind a lead byte (`longestFront_of_lead?`). Two
statements say how little of a list matters: bytes beyond the longest front
never do (`longestFront_take`), and neither do bytes added behind a list that
is no front itself (`longestFront_append`).

**What it does not establish.** That so many bytes should be passed over, and
not one of them or all up to the next character, is the reader's choice; here it
is only said which choice it is, so that the readers and the validator can be
shown to make the same one.
-/

namespace ByteLexer

namespace Utf8

/-! ## Fronts of encodings -/

/-- The bytes are a front of some character's encoding, perhaps all of it. Such
bytes are not yet wrong: what follows could complete them. -/
def IsFront (bytes : List UInt8) : Prop :=
  ∃ c, bytes <+: String.utf8EncodeChar c

theorem isFront_nil : IsFront [] :=
  ⟨'a', List.nil_prefix⟩

theorem IsFront.of_prefix {front bytes : List UInt8} (h : IsFront bytes)
    (hfront : front <+: bytes) : IsFront front := by
  obtain ⟨c, hc⟩ := h
  exact ⟨c, hfront.trans hc⟩

/-- A front is no longer than an encoding can be. -/
theorem IsFront.length_le {bytes : List UInt8} (h : IsFront bytes) : bytes.length ≤ maxWidth := by
  obtain ⟨c, hc⟩ := h
  calc bytes.length ≤ (String.utf8EncodeChar c).length := hc.length_le
    _ = c.utf8Size := String.length_utf8EncodeChar c
    _ ≤ maxWidth := c.utf8Size_le_four

/-- A front with a byte below `80` in it is that byte. -/
theorem IsFront.eq_singleton {bytes : List UInt8} {byte : UInt8} (h : IsFront bytes)
    (hbyte : byte ∈ bytes) (hascii : byte < 0x80) : bytes = [byte] := by
  obtain ⟨c, hc⟩ := h
  rw [encode_of_mem (hc.subset hbyte) hascii] at hc
  exact hc.eq_of_length_le (List.length_pos_of_mem hbyte)

/-- A front of more than one byte is a lead byte with some of what it asks for. -/
theorem isFront_cons_iff {first : UInt8} {rest : List UInt8} : IsFront (first :: rest) ↔
    (first < 0x80 ∧ rest = []) ∨
      ∃ lead, lead? first = some lead ∧ fits lead.due lead.low lead.high rest = rest.length := by
  constructor
  · intro ⟨c, more, hmore⟩
    obtain ⟨hascii, hnil⟩ | ⟨lead, hlead, hfills⟩ := encode_eq_cons hmore.symm
    · exact .inl ⟨hascii, (List.append_eq_nil_iff.1 hnil).1⟩
    · exact .inr ⟨lead, hlead, (fits_eq_length_iff (lead?_bounds hlead).2.2.2).2 ⟨more, hfills⟩⟩
  · rintro (⟨hascii, rfl⟩ | ⟨lead, hlead, hfits⟩)
    · exact ⟨_, [], by rw [encode_ofNat hascii, List.append_nil]⟩
    · obtain ⟨more, hmore⟩ := (fits_eq_length_iff (lead?_bounds hlead).2.2.2).1 hfits
      obtain ⟨c, hc⟩ := exists_encode_of_fills hlead hmore
      exact ⟨c, more, hc.symm⟩

instance : DecidablePred IsFront
  | [] => .isTrue isFront_nil
  | first :: rest =>
    decidable_of_iff
      ((first < 0x80 ∧ rest = []) ∨
        ∃ lead ∈ lead? first, fits lead.due lead.low lead.high rest = rest.length)
      isFront_cons_iff.symm

/-! ## The longest front -/

/-- The length of the longest front of the list that is a front of an encoding. -/
def longestFront (bytes : List UInt8) : Nat :=
  Nat.findGreatest (fun n => IsFront (bytes.take n)) bytes.length

/-- How many bytes are passed over where a list begins with no character. -/
def malformedLength (bytes : List UInt8) : Nat :=
  max 1 (longestFront bytes)

/-- The longest front, by what it is and by what is longer. -/
theorem longestFront_eq_iff {bytes : List UInt8} {n : Nat} : longestFront bytes = n ↔
    n ≤ bytes.length ∧ IsFront (bytes.take n) ∧
      ∀ m, n < m → m ≤ bytes.length → ¬IsFront (bytes.take m) := by
  unfold longestFront
  rw [Nat.findGreatest_eq_iff]
  constructor
  · intro ⟨hle, hfront, hlonger⟩
    refine ⟨hle, ?_, ?_⟩
    · by_cases hzero : n = 0
      · rw [hzero, List.take_zero]
        exact isFront_nil
      · exact hfront hzero
    · intro m hm hm'
      exact hlonger hm hm'
  · intro ⟨hle, hfront, hlonger⟩
    refine ⟨hle, ?_, ?_⟩
    · intro _
      exact hfront
    · intro m hm hm'
      exact hlonger m hm hm'

theorem isFront_take_longestFront (bytes : List UInt8) :
    IsFront (bytes.take (longestFront bytes)) :=
  (longestFront_eq_iff.1 rfl).2.1

theorem longestFront_le_length (bytes : List UInt8) : longestFront bytes ≤ bytes.length :=
  (longestFront_eq_iff.1 rfl).1

theorem longestFront_le_maxWidth (bytes : List UInt8) : longestFront bytes ≤ maxWidth := by
  have h := (isFront_take_longestFront bytes).length_le
  rw [List.length_take, Nat.min_eq_left (longestFront_le_length bytes)] at h
  exact h

theorem malformedLength_pos (bytes : List UInt8) : 0 < malformedLength bytes :=
  Nat.le_max_left _ _

theorem malformedLength_le_length {bytes : List UInt8} (h : bytes ≠ []) :
    malformedLength bytes ≤ bytes.length :=
  Nat.max_le.2 ⟨List.length_pos_iff.2 h, longestFront_le_length bytes⟩

theorem malformedLength_le_maxWidth (bytes : List UInt8) : malformedLength bytes ≤ maxWidth :=
  Nat.max_le.2 ⟨by decide, longestFront_le_maxWidth bytes⟩

theorem IsFront.longestFront_eq {bytes : List UInt8} (h : IsFront bytes) :
    longestFront bytes = bytes.length := by
  refine longestFront_eq_iff.2 ⟨Nat.le_refl _, ?_, ?_⟩
  · rw [List.take_length]
    exact h
  · intro m hm hm'
    omega

/-- Bytes beyond the longest front have no part in it. -/
theorem longestFront_take {bytes : List UInt8} {n : Nat} (hn : longestFront bytes ≤ n) :
    longestFront (bytes.take n) = longestFront bytes := by
  have hlength := longestFront_le_length bytes
  refine longestFront_eq_iff.2 ⟨?_, ?_, ?_⟩
  · rw [List.length_take]
    omega
  · rw [List.take_take, Nat.min_eq_left hn]
    exact isFront_take_longestFront bytes
  · intro m hm hm'
    rw [List.length_take] at hm'
    rw [List.take_take, Nat.min_eq_left (by omega)]
    exact (longestFront_eq_iff.1 rfl).2.2 m hm (by omega)

/-- Nor have they any part in the malformed front. -/
theorem malformedLength_take {bytes : List UInt8} {n : Nat} (hn : malformedLength bytes ≤ n) :
    malformedLength (bytes.take n) = malformedLength bytes := by
  have hlongest : longestFront bytes ≤ n := Nat.le_trans (Nat.le_max_right _ _) hn
  rw [malformedLength, longestFront_take hlongest, malformedLength]

theorem longestFront_lt_length {bytes : List UInt8} (h : ¬IsFront bytes) :
    longestFront bytes < bytes.length := by
  apply Nat.lt_of_le_of_ne (longestFront_le_length bytes)
  intro heq
  apply h
  have hfront := isFront_take_longestFront bytes
  rw [heq, List.take_length] at hfront
  exact hfront

/-- Bytes added behind a list that is no front have no part in the longest front.
A front of the longer list that reached into them would have the whole list for a
front of its own. -/
theorem longestFront_append {bytes : List UInt8} (h : ¬IsFront bytes) (more : List UInt8) :
    longestFront (bytes ++ more) = longestFront bytes := by
  have hle := longestFront_le_length bytes
  refine longestFront_eq_iff.2 ⟨?_, ?_, ?_⟩
  · rw [List.length_append]
    omega
  · rw [List.take_append_of_le_length hle]
    exact isFront_take_longestFront bytes
  · intro m hm hm' hfront
    by_cases hlong : m ≤ bytes.length
    · rw [List.take_append_of_le_length hlong] at hfront
      exact (longestFront_eq_iff.1 rfl).2.2 m hm hlong hfront
    · refine h (hfront.of_prefix ?_)
      rw [List.take_append, List.take_of_length_le (by omega)]
      exact List.prefix_append _ _

/-- What is no front and begins with no character does not begin with one
because of what follows. -/
theorem not_begins_append {bytes : List UInt8} (hbegins : ¬Begins bytes) (hfront : ¬IsFront bytes)
    (more : List UInt8) : ¬Begins (bytes ++ more) := by
  intro ⟨c, hc⟩
  obtain h | h := List.prefix_or_prefix_of_prefix hc (List.prefix_append bytes more)
  · exact hbegins ⟨c, h⟩
  · exact hfront ⟨c, h⟩

/-- A byte below `80` behind some bytes, and what follows it, has no part in the
character that they begin with. -/
theorem decode?_append_cons {bytes : List UInt8} (hne : bytes ≠ []) {byte : UInt8}
    (hascii : byte < 0x80) (tail : List UInt8) :
    decode? (bytes ++ byte :: tail) = decode? bytes := by
  apply Option.ext
  intro c
  rw [decode?_eq_some_iff, decode?_eq_some_iff]
  constructor
  · intro h
    obtain hshort | hlong := List.prefix_or_prefix_of_prefix h (List.prefix_append bytes _)
    · exact hshort
    · -- all bytes are a front of the encoding, and if there were more, the next would be `byte`
      obtain ⟨more, hmore⟩ := hlong
      rw [← hmore, List.prefix_append_right_inj] at h
      cases more with
      | nil => exact ⟨[], by rw [List.append_nil, ← hmore, List.append_nil]⟩
      | cons next more =>
        obtain ⟨rfl, -⟩ := List.cons_prefix_cons.1 h
        have hmem : next ∈ String.utf8EncodeChar c :=
          hmore ▸ List.mem_append_right _ List.mem_cons_self
        have hlength := congrArg List.length (hmore.trans (encode_of_mem hmem hascii))
        have hpos := List.length_pos_iff.2 hne
        rw [List.length_append, List.length_cons, List.length_singleton] at hlength
        omega
  · intro h
    exact h.trans (List.prefix_append _ _)

/-- Nor in the malformed front that they begin with. -/
theorem malformedLength_append_cons {bytes : List UInt8} (hne : bytes ≠ []) {byte : UInt8}
    (hascii : byte < 0x80) (tail : List UInt8) :
    malformedLength (bytes ++ byte :: tail) = malformedLength bytes := by
  rw [malformedLength, malformedLength]
  by_cases hfront : IsFront bytes
  · have hpos := List.length_pos_iff.2 hne
    have hlongest : longestFront (bytes ++ byte :: tail) = bytes.length := by
      refine longestFront_eq_iff.2 ⟨?_, ?_, ?_⟩
      · rw [List.length_append]
        omega
      · rw [List.take_left]
        exact hfront
      · intro m hm hm' hlonger
        have hmem : byte ∈ (bytes ++ byte :: tail).take m := by
          rw [List.take_append, List.take_cons (by omega)]
          exact List.mem_append_right _ List.mem_cons_self
        have hlength := congrArg List.length (hlonger.eq_singleton hmem hascii)
        rw [List.length_take, List.length_singleton] at hlength
        omega
    rw [hlongest, hfront.longestFront_eq]
  · rw [longestFront_append hfront]

/-- Behind a lead byte, the longest front is that byte and what fits after it.
The front is said in terms of characters and the count in terms of bytes; this is
where the automaton, which counts, is seen to find the front. -/
theorem longestFront_of_lead? {first : UInt8} {rest : List UInt8} {lead : Lead}
    (h : lead? first = some lead) :
    longestFront (first :: rest) = fits lead.due lead.low lead.high rest + 1 := by
  have hle := fits_le_length lead.due lead.low lead.high rest
  -- a front of `n + 1` bytes is one of which all `n` later bytes fit
  have hiff : ∀ n, n ≤ rest.length →
      (IsFront ((first :: rest).take (n + 1)) ↔ n ≤ fits lead.due lead.low lead.high rest) := by
    intro n hn
    rw [List.take_succ_cons, isFront_cons_iff]
    simp only [not_lt_of_lead? h, h, false_and, false_or, Option.some.injEq, exists_eq_left',
      fits_take, List.length_take]
    omega
  refine longestFront_eq_iff.2 ⟨Nat.succ_le_succ hle, (hiff _ hle).2 (Nat.le_refl _), ?_⟩
  rintro (_ | m) hm hm'
  · omega
  · rw [List.length_cons] at hm'
    rw [hiff m (by omega)]
    omega

/-- No front begins with a byte that begins no encoding. -/
theorem longestFront_of_lead?_eq_none {first : UInt8} {rest : List UInt8} (hascii : ¬first < 0x80)
    (h : lead? first = none) : longestFront (first :: rest) = 0 := by
  refine longestFront_eq_iff.2 ⟨Nat.zero_le _, isFront_nil, ?_⟩
  rintro (_ | m) hm hm' hfront
  · omega
  · rw [List.take_succ_cons, isFront_cons_iff] at hfront
    obtain ⟨hlt, -⟩ | ⟨lead, hlead, -⟩ := hfront
    · exact hascii hlt
    · rw [h] at hlead
      cases hlead

end Utf8

end ByteLexer
