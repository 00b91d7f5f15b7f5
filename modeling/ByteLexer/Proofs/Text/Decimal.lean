import Mathlib.Data.List.Induction
import Mathlib.Logic.Function.Basic

/-!
# Decimal numerals

A number has one decimal numeral, the one without zeros in front, and `decimal?` reads
the number off it. It accepts exactly what is written of numbers
(`decimal?_eq_some_iff`), so that a text can be told to be a numeral without asking
which.

Where a mark that is no digit stands behind it, a numeral can also be told from what
is behind (`toDigits_append_cons_inj`), as any text can that does not hold the mark
(`append_cons_inj`).

**What it does not establish.** Other spellings of a number are not read, be it with a sign,
with zeros in front or in another base: for `decimal?` they are no numerals. Numbers have no
upper bound here, and whether one fits a word is asked where it is written or stored.
-/

namespace ByteLexer

/-- The number that a numeral stands for: one digit, or several without a zero in front. -/
def decimal? (digits : List Char) : Option Nat :=
  if digits ≠ [] ∧ digits.all Char.isDigit ∧ (digits.head? = some '0' → digits = ['0'])
  then some (Nat.ofDigitChars 10 digits 0)
  else none

theorem digitChar_toNat_sub {c : Char} (h : c.isDigit = true) :
    c.toNat - '0'.toNat < 10 ∧ Nat.digitChar (c.toNat - '0'.toNat) = c := by
  obtain ⟨hlow, hhigh⟩ := Char.isDigit_iff_toNat.1 h
  have hzero : '0'.toNat = 48 := rfl
  have hnine : '9'.toNat = 57 := rfl
  have hlt : c.toNat - '0'.toNat < 10 := by omega
  refine ⟨hlt, Char.toNat_inj.1 ?_⟩
  rw [Nat.toNat_digitChar_of_lt_ten hlt]
  omega

/-- Digits behind the numeral of a number are those of the number that goes on with them. -/
theorem toDigits_append_digits {digits : List Char} (hdigits : ∀ c ∈ digits, c.isDigit = true)
    {n : Nat} (hpos : 0 < n) :
    Nat.toDigits 10 n ++ digits = Nat.toDigits 10 (Nat.ofDigitChars 10 digits n) := by
  induction digits generalizing n with
  | nil => rw [List.append_nil, Nat.ofDigitChars_nil]
  | cons c digits ih =>
    obtain ⟨hc, hdigits⟩ := List.forall_mem_cons.1 hdigits
    obtain ⟨hlt, hchar⟩ := digitChar_toNat_sub hc
    have hlonger := Nat.toDigits_append_toDigits (by decide) hpos hlt
    rw [Nat.toDigits_of_lt_base hlt, hchar] at hlonger
    rw [Nat.ofDigitChars_cons, ← ih hdigits (by omega), ← hlonger, List.append_assoc,
      List.singleton_append]

/-- The numeral of a number has no zero in front. -/
theorem head?_toDigits {n : Nat} (h : (Nat.toDigits 10 n).head? = some '0') : n = 0 := by
  induction n using Nat.base_induction 10 (by decide) with
  | single n hlt =>
    rw [Nat.toDigits_of_lt_base hlt, List.head?_singleton, Option.some.injEq,
      Nat.digitChar_eq_zero] at h
    exact h
  | digit n k hk hn ih =>
    obtain ⟨c, digits, hdigits⟩ :=
      List.exists_cons_of_ne_nil (Nat.toDigits_ne_nil : Nat.toDigits 10 n ≠ [])
    rw [← Nat.toDigits_append_toDigits (by decide) hn hk, hdigits] at h
    rw [hdigits] at ih
    exact absurd (ih h) (Nat.ne_of_gt hn)

/-- **What is accepted is what is written of a number**, and the number that is read is that one.
So two numbers do not share a numeral, and a text that is not accepted, such as `01` or the
empty one, is not the numeral of any. -/
theorem decimal?_eq_some_iff {digits : List Char} {n : Nat} :
    decimal? digits = some n ↔ digits = Nat.toDigits 10 n := by
  unfold decimal?
  constructor
  · intro h
    rw [Option.ite_none_right_eq_some, Option.some.injEq] at h
    obtain ⟨⟨hne, hall, hzero⟩, rfl⟩ := h
    have hdigits := List.all_eq_true.1 hall
    obtain ⟨c, digits, rfl⟩ := List.exists_cons_of_ne_nil hne
    obtain ⟨hlt, hchar⟩ := digitChar_toNat_sub (hdigits c List.mem_cons_self)
    by_cases hc : c = '0'
    · rw [hzero (congrArg some hc)]
      rfl
    · have hpos : 0 < c.toNat - '0'.toNat := by
        apply Nat.pos_of_ne_zero
        intro hn
        rw [hn] at hchar
        exact hc hchar.symm
      rw [Nat.ofDigitChars_cons, Nat.mul_zero, Nat.zero_add,
        ← toDigits_append_digits (fun d hd => hdigits d (List.mem_cons_of_mem c hd)) hpos,
        Nat.toDigits_of_lt_base hlt, hchar]
      rfl
  · rintro rfl
    rw [if_pos, Nat.ofDigitChars_ten_toDigits]
    refine ⟨Nat.toDigits_ne_nil, List.all_eq_true.2 fun _ =>
      Nat.isDigit_of_mem_toDigits (by decide) (by decide), ?_⟩
    intro hhead
    rw [head?_toDigits hhead, Nat.toDigits_zero]

/-! ## In front of a mark -/

/-- What stands in front of the first of a mark can be told from what stands behind it. -/
theorem append_cons_inj {α : Type} {mark : α} {front other rest behind : List α}
    (hfront : mark ∉ front) (hother : mark ∉ other)
    (h : front ++ mark :: rest = other ++ mark :: behind) : front = other ∧ rest = behind := by
  induction front generalizing other with
  | nil =>
    cases other with
    | nil => exact ⟨rfl, (List.cons.inj h).2⟩
    | cons first other =>
      exact absurd ((List.cons.inj h).1 ▸ List.mem_cons_self) hother
  | cons first front ih =>
    cases other with
    | nil => exact absurd ((List.cons.inj h).1 ▸ List.mem_cons_self) hfront
    | cons second other =>
      obtain ⟨rfl, htail⟩ := List.cons.inj h
      obtain ⟨rfl, hrest⟩ :=
        ih (mt (List.mem_cons_of_mem _) hfront) (mt (List.mem_cons_of_mem _) hother) htail
      exact ⟨rfl, hrest⟩

/-- Digits with something else behind them can be told from what is behind. -/
theorem takeWhile_isDigit_toDigits (n : Nat) {c : Char} (hc : c.isDigit = false)
    (rest : List Char) :
    (Nat.toDigits 10 n ++ c :: rest).takeWhile Char.isDigit = Nat.toDigits 10 n := by
  rw [List.takeWhile_append_of_pos fun _ => Nat.isDigit_of_mem_toDigits (by decide) (by decide),
    List.takeWhile_cons_of_neg (Bool.eq_false_iff.1 hc), List.append_nil]

theorem not_mem_toDigits (n : Nat) {c : Char} (hc : c.isDigit = false) :
    c ∉ Nat.toDigits 10 n :=
  fun hmem => Bool.eq_false_iff.1 hc (Nat.isDigit_of_mem_toDigits (by decide) (by decide) hmem)

theorem toDigits_injective : Function.Injective (Nat.toDigits 10) := by
  intro first second h
  rw [← Nat.ofDigitChars_ten_toDigits (n := first), h, Nat.ofDigitChars_ten_toDigits]

/-- The same digits before the same mark are those of the same number, with the same behind. -/
theorem toDigits_append_cons_inj {first second : Nat} {c : Char} (hc : c.isDigit = false)
    {rest other : List Char}
    (h : Nat.toDigits 10 first ++ c :: rest = Nat.toDigits 10 second ++ c :: other) :
    first = second ∧ rest = other := by
  obtain ⟨hdigits, hrest⟩ :=
    append_cons_inj (not_mem_toDigits first hc) (not_mem_toDigits second hc) h
  exact ⟨toDigits_injective hdigits, hrest⟩

end ByteLexer
