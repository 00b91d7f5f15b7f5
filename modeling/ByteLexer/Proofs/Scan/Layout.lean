import Mathlib.Data.List.Chain
import ByteLexer.Proofs.Scan.Calls
import ByteLexer.Proofs.Scan.Spelling

/-!
# Words laid out are read back

Words of any kinds, with any spaces before, between and behind them, are what
the scanner reads back, each word a token at the offset where it was laid
(`tokenize_layout_iff`), provided that they are kept apart where they would
join: there is a space at least between an identifier and an identifier or a
number behind it, and between two numbers. Elsewhere no space is needed, and
where one is needed and missing the tokens are others.

The offset of a token is said as the length of a layout: that of the entries
before it, with the spaces before the word at the end.

**What it does not establish.** Words are laid with spaces and nothing else between them,
and each is spelled. What comes of bytes that spell nothing is not said here, only that a
layout without them is read back, and when it is not.
-/

namespace ByteLexer

namespace Utf8

/-- The bytes that encode a text. -/
def bytes (text : String) : List UInt8 :=
  text.toByteArray.data.toList

theorem toByteArray_bytes (text : String) : (bytes text).toByteArray = text.toByteArray :=
  toByteArray_toList text.toByteArray

theorem bytes_text {bytes : List UInt8} (h : undecoded bytes = []) :
    Utf8.bytes (text bytes) = bytes := by
  rw [Utf8.bytes, toByteArray_text h, List.toList_data_toByteArray]

theorem text_bytes (text : String) : Utf8.text (bytes text) = text := by
  have hvalid : undecoded (bytes text) = [] := by
    rw [← isValidUTF8_iff_undecoded, toByteArray_bytes]
    exact text.isValidUTF8
  apply String.toByteArray_inj.1
  rw [toByteArray_text hvalid, toByteArray_bytes]

/-- The bytes of a text are the encodings of its characters. -/
theorem bytes_eq_encodeAll (text : String) : bytes text = encodeAll text.toList := by
  have hvalid : undecoded (encodeAll text.toList) = [] :=
    isValidUTF8_iff_undecoded.1 (isValidUTF8_iff.2 ⟨_, rfl⟩)
  have hbytes := bytes_text hvalid
  rwa [text_encodeAll, String.ofList_toList] at hbytes

end Utf8

/-! ## Layouts -/

/-- Some spaces, perhaps none. -/
structure Spaces where
  bytes : List UInt8
  isSpace : ∀ byte ∈ bytes, ByteClass.isSpace byte = true

/-- A word of a kind, with the spaces that are laid before it. That the text spells a word of
the kind is part of the entry, so there is no list of entries that would have to be
checked before it is laid out. -/
structure Entry where
  gap : Spaces
  kind : Kind
  text : String
  spelled : Spelling kind (Utf8.bytes text)

/-- An entry keeps apart from the one before it: where the words would join,
there is a space between them. -/
def Entry.Apart (before entry : Entry) : Prop :=
  before.kind.joins entry.kind = true → entry.gap.bytes ≠ []

/-- The bytes of some entries, one after the other, and then some spaces. -/
def layout (entries : List Entry) (last : Spaces) : List UInt8 :=
  entries.flatMap (fun entry => entry.gap.bytes ++ Utf8.bytes entry.text) ++ last.bytes

/-- The tokens of some entries, each at the number of bytes before its word
when the first entry begins at an offset. -/
def laidFrom (offset : Nat) (entries : List Entry) : List Token :=
  entries.mapIdx fun i entry =>
    ⟨entry.kind, entry.text, offset + (layout (entries.take i) entry.gap).length⟩

theorem layout_nil (last : Spaces) : layout [] last = last.bytes :=
  rfl

theorem layout_cons (entry : Entry) (entries : List Entry) (last : Spaces) :
    layout (entry :: entries) last =
      entry.gap.bytes ++ (Utf8.bytes entry.text ++ layout entries last) := by
  rw [layout, List.flatMap_cons, List.append_assoc, List.append_assoc, layout]

theorem offset_layout_cons (offset : Nat) (entry : Entry) (entries : List Entry) (last : Spaces) :
    offset + (layout (entry :: entries) last).length =
      offset + entry.gap.bytes.length + (Utf8.bytes entry.text).length +
        (layout entries last).length := by
  rw [layout_cons, List.length_append, List.length_append, ← Nat.add_assoc, ← Nat.add_assoc]

theorem laidFrom_cons (offset : Nat) (entry : Entry) (entries : List Entry) :
    laidFrom offset (entry :: entries) =
      ⟨entry.kind, entry.text, offset + entry.gap.bytes.length⟩ ::
        laidFrom (offset + entry.gap.bytes.length + (Utf8.bytes entry.text).length) entries := by
  rw [laidFrom, List.mapIdx_cons, laidFrom]
  simp only [List.take_succ_cons, offset_layout_cons]
  rfl

/-! ## Reading a layout -/

/-- A word goes on with what is laid behind it unless that keeps apart. -/
theorem takeWhile_layout_eq_nil_iff (before : Entry) (entries : List Entry) (last : Spaces) :
    (layout entries last).takeWhile before.kind.continues = [] ↔
      ∀ entry ∈ entries.head?, before.Apart entry := by
  have hspaces : ∀ (spaces : Spaces) (bytes : List UInt8), spaces.bytes ≠ [] →
      (spaces.bytes ++ bytes).takeWhile before.kind.continues = [] := by
    intro spaces bytes hne
    obtain ⟨first, more, hfirst⟩ := List.exists_cons_of_ne_nil hne
    have hspace := spaces.isSpace first (by rw [hfirst]; exact List.mem_cons_self)
    rw [takeWhile_eq_nil_iff, hfirst]
    exact Kind.not_continues_of_isSpace hspace
  cases entries with
  | nil =>
    refine iff_of_true ?_ (fun _ hnone => nomatch hnone)
    by_cases hlast : last.bytes = []
    · rw [layout_nil, hlast, List.takeWhile_nil]
    · have hstop := hspaces last [] hlast
      rwa [List.append_nil] at hstop
  | cons entry entries =>
    rw [layout_cons, List.head?_cons]
    by_cases hgap : entry.gap.bytes = []
    · obtain ⟨first, more, hword⟩ := List.exists_cons_of_ne_nil entry.spelled.ne_nil
      have hspelled := entry.spelled
      rw [hword] at hspelled
      rw [hgap, List.nil_append, takeWhile_eq_nil_iff, hword, List.cons_append, List.head?_cons,
        Option.any_some, hspelled.continues_eq]
      simp [Entry.Apart, hgap]
    · refine iff_of_true (hspaces _ _ hgap) ?_
      intro other hother _
      obtain rfl := Option.some.inj hother
      exact hgap

/-- With bytes behind it that it goes on with, a word has another text. -/
theorem Entry.text_append_eq_iff (entry : Entry) (tail : List UInt8) :
    Utf8.text (Utf8.bytes entry.text ++ tail.takeWhile entry.kind.continues) = entry.text ↔
      tail.takeWhile entry.kind.continues = [] := by
  constructor
  · intro htext
    have hvalid : Utf8.undecoded
        (Utf8.bytes entry.text ++ tail.takeWhile entry.kind.continues) = [] := by
      rw [Utf8.undecoded_append entry.spelled.valid]
      apply Utf8.undecoded_of_ascii
      intro byte hbyte
      exact Kind.lt_of_continues (List.all_eq_true.1 List.all_takeWhile byte hbyte)
    have hbytes := Utf8.bytes_text hvalid
    rw [htext] at hbytes
    exact List.append_right_eq_self.1 hbytes.symm
  · intro hnone
    rw [hnone, List.append_nil, Utf8.text_bytes]

/-- A layout has the tokens of its entries exactly when they keep apart. -/
theorem lexFrom_layout_iff (offset : Nat) (entries : List Entry) (last : Spaces) :
    lexFrom offset (layout entries last) =
      laidFrom offset entries ++ [.endOfInput (offset + (layout entries last).length)] ↔
    entries.IsChain Entry.Apart := by
  induction entries generalizing offset with
  | nil => exact iff_of_true (lexFrom_spaces offset last.isSpace) .nil
  | cons entry entries ih =>
    rw [offset_layout_cons, layout_cons, lexFrom_append_spaces offset entry.gap.isSpace,
      laidFrom_cons, List.cons_append, List.isChain_cons,
      ← takeWhile_layout_eq_nil_iff entry entries last]
    -- a word that goes on has another text, so no offset has to be compared in that case
    by_cases hstop : (layout entries last).takeWhile entry.kind.continues = []
    · rw [lexFrom_append_of_stop _ entry.spelled hstop, Utf8.text_bytes, List.cons.injEq, ih]
      simp only [hstop, true_and]
    · rw [lexFrom_append_word _ entry.spelled, List.cons.injEq, Token.mk.injEq,
        entry.text_append_eq_iff]
      exact iff_of_false (fun h => hstop h.1.2.1) (fun h => hstop h.1)

/-- **Words laid out are read back**, each at the number of bytes before it and
with the end of the source behind them, if and only if they keep apart where
they would join. So the condition on neighbours is not only enough: where it fails, no
other spacing elsewhere can make up for it, since the word in front is read with another
text (`Entry.text_append_eq_iff`). -/
theorem tokenize_layout_iff (entries : List Entry) (last : Spaces) :
    tokenize (layout entries last).toByteArray =
      entries.mapIdx (fun i entry =>
        ⟨entry.kind, entry.text, (layout (entries.take i) entry.gap).length⟩) ++
        [.endOfInput (layout entries last).length] ↔
    entries.IsChain Entry.Apart := by
  have h := lexFrom_layout_iff 0 entries last
  simp only [laidFrom, Nat.zero_add] at h
  rw [Scanner.tokenize_eq_map_calls, Scanner.map_token_calls_start, List.toList_data_toByteArray]
  exact h

end ByteLexer
