import ByteLexer.Text.Shown
import Mathlib.Data.List.Basic
import Mathlib.Data.Nat.Init

/-!
# Control characters

What is written for a terminal or a log should be known to hold no control character but
the line feeds that end its lines. A control character is one of U+0000 to U+001F and
U+007F to U+009F (`IsControl`), and a text that ends with a line feed and holds no other
is one line (`IsLine`). Lines can be counted by their line feeds, whatever else stands
on them (`count_lineFeed_join`).

A character is shown without any control character, be it one itself or not
(`noControl_shown`). Four of the controls have an escape by name. That the table of
what is hidden has all the others is found by looking each of them up, and no more of
the table is known here than its beginning.

**What it does not establish.** To hold no control character is not to be harmless: marks that
change the direction of what follows, and characters that are not seen, are none in this
sense. That those are hidden as well is for the table to say (`isHidden`), and it is not
asked here. How wide a line is, and whether a terminal breaks it, is not asked either.
-/

namespace ByteLexer

/-- The character is a control character. -/
def IsControl (c : Char) : Prop :=
  c.toNat < 0x20 ∨ 0x7F ≤ c.toNat ∧ c.toNat < 0xA0

instance : DecidablePred IsControl :=
  fun c => inferInstanceAs (Decidable (c.toNat < 0x20 ∨ 0x7F ≤ c.toNat ∧ c.toNat < 0xA0))

/-- No character is a control character. -/
def NoControl (cs : List Char) : Prop :=
  ∀ c ∈ cs, ¬IsControl c

instance (cs : List Char) : Decidable (NoControl cs) :=
  List.decidableBAll (fun c => ¬IsControl c) cs

/-- The text is one line: it ends with a line feed, and no other control character
stands in it. -/
def IsLine (text : String) : Prop :=
  text.toList.getLast? = some '\n' ∧ NoControl text.toList.dropLast

instance (text : String) : Decidable (IsLine text) :=
  inferInstanceAs (Decidable (_ ∧ _))

section

variable {cs more : List Char} {c : Char}

@[simp] theorem noControl_nil : NoControl [] :=
  List.forall_mem_nil _

@[simp] theorem noControl_cons : NoControl (c :: cs) ↔ ¬IsControl c ∧ NoControl cs :=
  List.forall_mem_cons

@[simp] theorem noControl_append : NoControl (cs ++ more) ↔ NoControl cs ∧ NoControl more :=
  List.forall_mem_append

theorem NoControl.lineFeed_not_mem (h : NoControl cs) : '\n' ∉ cs :=
  fun hmem => h '\n' hmem (by decide)

end

/-! ## Lines -/

section

variable {text : String} {lines : List String}

@[simp] theorem isLine_append_lineFeed : IsLine (text ++ "\n") ↔ NoControl text.toList := by
  have htext : (text ++ "\n").toList = text.toList ++ ['\n'] := String.toList_append
  rw [IsLine, htext, List.getLast?_concat, List.dropLast_concat]
  exact and_iff_right rfl

/-- Two lines are not one. -/
example : ¬IsLine "first\nsecond\n" := by decide

theorem IsLine.toList_eq (h : IsLine text) : text.toList = text.toList.dropLast ++ ['\n'] :=
  (List.dropLast_append_getLast? _ h.1).symm

theorem IsLine.count_lineFeed (h : IsLine text) : text.toList.count '\n' = 1 := by
  rw [h.toList_eq, List.count_append, List.count_eq_zero_of_not_mem h.2.lineFeed_not_mem]
  rfl

theorem IsLine.eq_lineFeed_of_isControl (h : IsLine text) {c : Char} (hmem : c ∈ text.toList)
    (hc : IsControl c) : c = '\n' := by
  rw [h.toList_eq, List.mem_append, List.mem_singleton] at hmem
  exact hmem.resolve_left fun hbefore => h.2 c hbefore hc

/-- There are as many lines as line feeds. -/
theorem count_lineFeed_join (h : ∀ line ∈ lines, IsLine line) :
    (String.join lines).toList.count '\n' = lines.length := by
  induction lines with
  | nil => rfl
  | cons line lines ih =>
    obtain ⟨hline, hlines⟩ := List.forall_mem_cons.1 h
    rw [String.join_cons, String.toList_append, List.count_append, hline.count_lineFeed,
      ih hlines, List.length_cons, Nat.add_comm]

theorem eq_lineFeed_of_mem_join (h : ∀ line ∈ lines, IsLine line) {c : Char}
    (hmem : c ∈ (String.join lines).toList) (hc : IsControl c) : c = '\n' := by
  rw [String.toList_join] at hmem
  obtain ⟨line, hline, hmem⟩ := List.mem_flatMap.1 hmem
  exact (h line hline).eq_lineFeed_of_isControl hmem hc

end

/-! ## Numerals -/

theorem not_isControl_digitChar : ∀ n < 16, ¬IsControl (Nat.digitChar n) := by
  decide

@[simp] theorem noControl_toDigits {base : Nat} (hbase : 1 < base) (hle : base ≤ 16) (n : Nat) :
    NoControl (Nat.toDigits base n) := by
  have hdigit : ∀ k < base, NoControl (Nat.toDigits base k) := by
    intro k hk
    rw [Nat.toDigits_of_lt_base hk]
    simp [not_isControl_digitChar k (by omega)]
  induction n using Nat.base_induction base hbase with
  | single n hlt => exact hdigit n hlt
  | digit n k hk hn ih =>
    rw [← Nat.toDigits_append_toDigits hbase hn hk]
    exact noControl_append.2 ⟨ih, hdigit k hk⟩

/-! ## Characters as they are shown -/

/-- What is found in a table stands there. -/
theorem mem_of_lookup {α β : Type} [BEq α] [LawfulBEq α] {table : List (α × β)} {key : α}
    {value : β} (h : table.lookup key = some value) : (key, value) ∈ table := by
  obtain ⟨before, behind, htable, -⟩ := List.lookup_eq_some_iff.1 h
  rw [htable]
  exact List.mem_append_right _ List.mem_cons_self

/-- A control character without an escape by name is hidden. -/
theorem isHidden_of_isControl {c : Char} (hc : IsControl c)
    (hname : Shown.named.lookup c = none) : isHidden c = true := by
  have hall : ∀ code < 0xA0, IsControl (Char.ofNat code) →
      Shown.named.lookup (Char.ofNat code) = none → isHidden (Char.ofNat code) = true := by
    decide +kernel
  have hlt : c.toNat < 0xA0 := by
    obtain hlow | ⟨-, hhigh⟩ := hc
    · omega
    · exact hhigh
  rw [← Char.ofNat_toNat c] at hc hname ⊢
  exact hall c.toNat hlt hc hname

theorem noControl_named : ∀ entry ∈ Shown.named, NoControl entry.2.toList := by
  decide

theorem noControl_byCode (c : Char) : NoControl (Shown.byCode c).toList := by
  simp [Shown.byCode, IsControl]

theorem noControl_common (c : Char) : NoControl (Shown.common c).toList := by
  unfold Shown.common
  cases hname : Shown.named.lookup c with
  | some escape => exact noControl_named (c, escape) (mem_of_lookup hname)
  | none =>
    dsimp only
    split
    · exact noControl_byCode c
    · rename_i hhidden
      have hc : ¬IsControl c := fun hc => hhidden (isHidden_of_isControl hc hname)
      simp [hc]

/-- **A character is shown without control characters**, whichever it is: one with an escape by
name is shown by this, one that is hidden by its code, and both are marks, letters and digits.
What is left is shown as itself, and a control character is not among it
(`isHidden_of_isControl`). -/
theorem noControl_shown (c : Char) : NoControl (shown c).toList := by
  unfold shown
  split
  · decide
  · exact noControl_common c

/-- U+0085 ends a line where it stands as itself, and is shown by its code point. -/
example : shown '\u0085' = "\\u\x7b85\x7d" := by decide +kernel

end ByteLexer
