import ByteLexer.Utf8.Character

/-!
# The shape of an encoding

The standard library gives the encoding of a character by arithmetic on its
number. The validator knows encodings by a table of lead bytes and by bounds
on the bytes after the lead. This module proves the two the same.

`Fills` is what the table asks of the bytes after a lead byte, as a relation;
`fits` counts how many bytes at the front of a list are as asked, whatever
follows them. The main statements:

- `encode_eq_cons`: every encoding is one byte below `80`, or a lead byte of
  the table with what it asks for (`Fills`);
- `exists_encode_of_fills`: all that the table allows is an encoding;
- `begins_cons_iff`: a list begins with an encoding exactly when its first
  byte is below `80`, or is a lead byte and `fits` counts all bytes due.

**What it takes as given.** An encoding is what `String.utf8EncodeChar` makes
of a character. That this is UTF-8 is for the standard library to answer, and
is not argued again. What follows an encoding in a longer list is left to
`ByteLexer.Proofs.Utf8.Defect`.
-/

namespace ByteLexer

namespace Utf8

/-! ## Lead bytes -/

/-- The table of lead bytes, by the numbers of the bytes. -/
theorem lead?_eq_some_iff {byte : UInt8} {lead : Lead} : lead? byte = some lead ↔
    (lead = ⟨1, 0x80, 0xBF⟩ ∧ 0xC2 ≤ byte.toNat ∧ byte.toNat < 0xE0) ∨
    (lead = ⟨2, 0xA0, 0xBF⟩ ∧ byte.toNat = 0xE0) ∨
    (lead = ⟨2, 0x80, 0x9F⟩ ∧ byte.toNat = 0xED) ∨
    (lead = ⟨2, 0x80, 0xBF⟩ ∧ 0xE0 < byte.toNat ∧ byte.toNat < 0xF0 ∧ byte.toNat ≠ 0xED) ∨
    (lead = ⟨3, 0x90, 0xBF⟩ ∧ byte.toNat = 0xF0) ∨
    (lead = ⟨3, 0x80, 0xBF⟩ ∧ 0xF0 < byte.toNat ∧ byte.toNat < 0xF4) ∨
    (lead = ⟨3, 0x80, 0x8F⟩ ∧ byte.toNat = 0xF4) := by
  unfold lead?
  simp only [UInt8.lt_iff_toNat_lt, ← UInt8.toNat_inj, UInt8.reduceToNat]
  constructor
  · intro h
    repeat' split at h
    all_goals cases h
    all_goals simp
    all_goals omega
  · rintro (⟨rfl, h⟩ | ⟨rfl, h⟩ | ⟨rfl, h⟩ | ⟨rfl, h⟩ | ⟨rfl, h⟩ | ⟨rfl, h⟩ | ⟨rfl, h⟩)
    all_goals repeat' split
    all_goals first | rfl | omega

theorem not_lt_of_lead? {byte : UInt8} {lead : Lead} (h : lead? byte = some lead) :
    ¬ byte < 0x80 := by
  have hcases := lead?_eq_some_iff.1 h
  simp only [UInt8.lt_iff_toNat_lt, UInt8.reduceToNat]
  omega

/-- Some byte is due after a lead byte, and some byte satisfies its bounds. -/
theorem lead?_bounds {byte : UInt8} {lead : Lead} (h : lead? byte = some lead) :
    0 < lead.due ∧ lead.due ≤ 3 ∧ 0x80 ≤ lead.low ∧ lead.low ≤ lead.high := by
  obtain ⟨rfl, -⟩ | ⟨rfl, -⟩ | ⟨rfl, -⟩ | ⟨rfl, -⟩ | ⟨rfl, -⟩ | ⟨rfl, -⟩ | ⟨rfl, -⟩ :=
    lead?_eq_some_iff.1 h
  all_goals decide

/-- The width that a lead byte announces counts the byte itself and those due after it. -/
theorem sequenceWidth_of_lead? {byte : UInt8} {lead : Lead} (h : lead? byte = some lead) :
    sequenceWidth byte = lead.due + 1 := by
  unfold sequenceWidth
  simp only [UInt8.lt_iff_toNat_lt, UInt8.reduceToNat]
  obtain ⟨rfl, hbyte⟩ | ⟨rfl, hbyte⟩ | ⟨rfl, hbyte⟩ | ⟨rfl, hbyte⟩ | ⟨rfl, hbyte⟩ | ⟨rfl, hbyte⟩ |
    ⟨rfl, hbyte⟩ := lead?_eq_some_iff.1 h
  all_goals repeat' split
  all_goals first | rfl | omega

/-! ## The bytes after a lead byte -/

/-- The list is what is due: so many bytes, the first between `low` and
`high` and the others between `80` and `BF`. -/
inductive Fills : (due : Nat) → (low high : UInt8) → List UInt8 → Prop
  | none {low high : UInt8} : Fills 0 low high []
  | next {due : Nat} {low high byte : UInt8} {rest : List UInt8} (hlow : low ≤ byte)
      (hhigh : byte ≤ high) (hrest : Fills due 0x80 0xBF rest) :
      Fills (due + 1) low high (byte :: rest)

/-- How many bytes at the front of the list are as they are due, up to the
first that is not. Where `Fills` says nothing of a list that breaks off or goes
wrong, this says how far it was right. -/
def fits : (due : Nat) → (low high : UInt8) → List UInt8 → Nat
  | 0, _, _, _ => 0
  | _ + 1, _, _, [] => 0
  | due + 1, low, high, byte :: rest =>
    if low ≤ byte ∧ byte ≤ high then fits due 0x80 0xBF rest + 1 else 0

theorem Fills.length_eq {due : Nat} {low high : UInt8} {bytes : List UInt8}
    (h : Fills due low high bytes) : bytes.length = due := by
  induction h with
  | none => rfl
  | next _ _ _ ih => rw [List.length_cons, ih]

/-- What is due, taken apart at its first byte. -/
theorem Fills.exists_cons {due : Nat} {low high : UInt8} {bytes : List UInt8}
    (h : Fills (due + 1) low high bytes) :
    ∃ byte rest, bytes = byte :: rest ∧ low.toNat ≤ byte.toNat ∧ byte.toNat ≤ high.toNat ∧
      Fills due 0x80 0xBF rest := by
  cases h with
  | next hlow hhigh hrest =>
    exact ⟨_, _, rfl, UInt8.le_iff_toNat_le.1 hlow, UInt8.le_iff_toNat_le.1 hhigh, hrest⟩

/-- No byte that is due after a lead byte is an ASCII character. -/
theorem Fills.not_lt {due : Nat} {low high : UInt8} {bytes : List UInt8}
    (h : Fills due low high bytes) (hbound : 0x80 ≤ low) {byte : UInt8} (hbyte : byte ∈ bytes) :
    ¬byte < 0x80 := by
  induction h with
  | none => cases hbyte
  | next hlow _ _ ih =>
    rcases List.mem_cons.1 hbyte with rfl | hlater
    · exact UInt8.not_lt.2 (UInt8.le_trans hbound hlow)
    · exact ih (UInt8.le_refl _) hlater

theorem Fills.replicate (due : Nat) : Fills due 0x80 0xBF (List.replicate due 0x80) := by
  induction due with
  | zero => exact .none
  | succ due ih => exact .next (by decide) (by decide) ih

theorem fits_le_due (due : Nat) (low high : UInt8) (bytes : List UInt8) :
    fits due low high bytes ≤ due := by
  fun_induction fits due low high bytes with
  | case1 => exact Nat.le_refl _
  | case2 => exact Nat.zero_le _
  | case3 _ _ _ _ _ _ ih => exact Nat.succ_le_succ ih
  | case4 => exact Nat.zero_le _

theorem fits_le_length (due : Nat) (low high : UInt8) (bytes : List UInt8) :
    fits due low high bytes ≤ bytes.length := by
  fun_induction fits due low high bytes with
  | case1 => exact Nat.zero_le _
  | case2 => exact Nat.zero_le _
  | case3 _ _ _ _ _ _ ih => exact Nat.succ_le_succ ih
  | case4 => exact Nat.zero_le _

theorem fits_take (due : Nat) (low high : UInt8) (bytes : List UInt8) (n : Nat) :
    fits due low high (bytes.take n) = min n (fits due low high bytes) := by
  fun_induction fits due low high bytes generalizing n with
  | case1 => simp [fits]
  | case2 => simp [fits]
  | case3 due low high byte rest hbyte ih =>
    cases n with
    | zero => simp [fits]
    | succ n =>
      rw [List.take_succ_cons, fits, if_pos hbyte, ih]
      omega
  | case4 due low high byte rest hbyte =>
    cases n with
    | zero => simp [fits]
    | succ n => rw [List.take_succ_cons, fits, if_neg hbyte, Nat.min_zero]

/-- All that is due stands at the front of a list exactly when the count says so. -/
theorem fits_eq_due_iff {due : Nat} {low high : UInt8} {bytes : List UInt8} :
    fits due low high bytes = due ↔
      ∃ more rest, bytes = more ++ rest ∧ Fills due low high more := by
  constructor
  · intro h
    fun_induction fits due low high bytes with
    | case1 low high bytes => exact ⟨[], bytes, rfl, .none⟩
    | case2 => cases h
    | case3 due low high byte rest hbyte ih =>
      obtain ⟨more, rest, rfl, hmore⟩ := ih (Nat.succ.inj h)
      exact ⟨byte :: more, rest, rfl, .next hbyte.1 hbyte.2 hmore⟩
    | case4 => cases h
  · rintro ⟨more, rest, rfl, hmore⟩
    induction hmore with
    | none => rfl
    | next hlow hhigh _ ih => rw [List.cons_append, fits, if_pos ⟨hlow, hhigh⟩, ih]

/-- Every byte fits exactly when the list can be completed to what is due,
provided the bounds leave room for a byte. -/
theorem fits_eq_length_iff {due : Nat} {low high : UInt8} {bytes : List UInt8}
    (hbounds : low ≤ high) :
    fits due low high bytes = bytes.length ↔ ∃ more, Fills due low high (bytes ++ more) := by
  constructor
  · intro h
    fun_induction fits due low high bytes with
    | case1 low high bytes =>
      obtain rfl := List.eq_nil_of_length_eq_zero h.symm
      exact ⟨[], .none⟩
    | case2 low high due =>
      exact ⟨low :: List.replicate due 0x80, .next (UInt8.le_refl _) hbounds (.replicate due)⟩
    | case3 due low high byte rest hbyte ih =>
      obtain ⟨more, hmore⟩ := ih (by decide) (Nat.succ.inj h)
      exact ⟨more, .next hbyte.1 hbyte.2 hmore⟩
    | case4 => cases h
  · intro ⟨more, hmore⟩
    have hall : fits due low high (bytes ++ more) = due :=
      fits_eq_due_iff.2 ⟨bytes ++ more, [], by rw [List.append_nil], hmore⟩
    have hlength := hmore.length_eq
    have hcut := fits_take due low high (bytes ++ more) bytes.length
    rw [List.take_left, hall] at hcut
    rw [List.length_append] at hlength
    omega

/-! ## Encodings are what the table allows -/

/-- A number between the bounds, as a byte that is due. -/
theorem Fills.ofNat {due n : Nat} {low high : UInt8} {rest : List UInt8} (hlow : low.toNat ≤ n)
    (hhigh : n ≤ high.toNat) (hrest : Fills due 0x80 0xBF rest) :
    Fills (due + 1) low high (UInt8.ofNat n :: rest) := by
  have hn : (UInt8.ofNat n).toNat = n := by
    have := high.toNat_lt
    rw [UInt8.toNat_ofNat', Nat.mod_eq_of_lt (by omega)]
  refine .next (UInt8.le_iff_toNat_le.2 ?_) (UInt8.le_iff_toNat_le.2 ?_) hrest <;> omega

/-- Six bits of a number, as a later byte of an encoding. -/
theorem Fills.ofBits {due n : Nat} {rest : List UInt8} (hrest : Fills due 0x80 0xBF rest) :
    Fills (due + 1) 0x80 0xBF (UInt8.ofNat (n % 64 + 0x80) :: rest) :=
  .ofNat (by simp) (by simp; omega) hrest

/-- An encoding is one byte below `80`, or a lead byte with what it asks for.
Which lead byte it is shows in the number of the character. Those with bounds of
their own stand where a range of numbers ends early: at the next width (`E0`,
`F0`), at the surrogates (`ED`), and at the last code point (`F4`). -/
theorem encode_eq_cons {c : Char} {first : UInt8} {rest : List UInt8}
    (h : String.utf8EncodeChar c = first :: rest) :
    (first < 0x80 ∧ rest = []) ∨
      ∃ lead, lead? first = some lead ∧ Fills lead.due lead.low lead.high rest := by
  have hvalid : c.val.toNat < 0xD800 ∨ 0xDFFF < c.val.toNat ∧ c.val.toNat < 0x110000 := c.valid
  simp only [lead?_eq_some_iff, UInt8.lt_iff_toNat_lt, UInt8.reduceToNat]
  unfold String.utf8EncodeChar at h
  generalize c.val.toNat = v at h hvalid
  dsimp only at h
  -- the lead bytes with bounds of their own stand for these ranges of numbers
  have hthree : v < 0x1000 ∨ 0xD000 ≤ v ∧ v < 0xE000 ∨ 0x1000 ≤ v ∧ ¬(0xD000 ≤ v ∧ v < 0xE000) := by
    omega
  have hfour : v < 0x40000 ∨ 0x40000 ≤ v ∧ v < 0x100000 ∨ 0x100000 ≤ v := by omega
  split at h
  · cases h
    exact .inl ⟨by simp; omega, rfl⟩
  right
  split at h
  · cases h
    exact ⟨_, .inl ⟨rfl, by simp; omega⟩, .ofBits .none⟩
  split at h
  · cases h
    obtain hv | hv | hv := hthree
    · exact ⟨_, .inr (.inl ⟨rfl, by simp; omega⟩),
        .ofNat (by simp; omega) (by simp; omega) (.ofBits .none)⟩
    · exact ⟨_, .inr (.inr (.inl ⟨rfl, by simp; omega⟩)),
        .ofNat (by simp) (by simp; omega) (.ofBits .none)⟩
    · exact ⟨_, .inr (.inr (.inr (.inl ⟨rfl, by simp; omega⟩))), .ofBits (.ofBits .none)⟩
  · cases h
    obtain hv | hv | hv := hfour
    · exact ⟨_, .inr (.inr (.inr (.inr (.inl ⟨rfl, by simp; omega⟩)))),
        .ofNat (by simp; omega) (by simp; omega) (.ofBits (.ofBits .none))⟩
    · exact ⟨_, .inr (.inr (.inr (.inr (.inr (.inl ⟨rfl, by simp; omega⟩))))),
        .ofBits (.ofBits (.ofBits .none))⟩
    · exact ⟨_, .inr (.inr (.inr (.inr (.inr (.inr ⟨rfl, by simp; omega⟩))))),
        .ofNat (by simp) (by simp; omega) (.ofBits (.ofBits .none))⟩

/-- An encoding at the front of some bytes begins with the first of them. -/
theorem exists_encode_eq_cons {c : Char} {first : UInt8} {rest : List UInt8}
    (h : String.utf8EncodeChar c <+: first :: rest) :
    ∃ more, String.utf8EncodeChar c = first :: more := by
  cases hc : String.utf8EncodeChar c with
  | nil => exact absurd hc String.utf8EncodeChar_ne_nil
  | cons byte more =>
    rw [hc] at h
    exact ⟨more, congrArg (· :: more) (List.cons_prefix_cons.1 h).1⟩

/-- A byte below `80` in an encoding is all of it. -/
theorem encode_of_mem {c : Char} {byte : UInt8} (h : byte ∈ String.utf8EncodeChar c)
    (hascii : byte < 0x80) : String.utf8EncodeChar c = [byte] := by
  cases hc : String.utf8EncodeChar c with
  | nil => exact absurd hc String.utf8EncodeChar_ne_nil
  | cons first rest =>
    rw [hc] at h
    rcases encode_eq_cons hc with ⟨-, rfl⟩ | ⟨lead, hlead, hfills⟩
    · rw [List.mem_singleton.1 h]
    · rcases List.mem_cons.1 h with rfl | hlater
      · exact absurd hascii (not_lt_of_lead? hlead)
      · exact absurd hascii (hfills.not_lt (lead?_bounds hlead).2.2.1 hlater)

theorem toNat_val_ofNat {n : Nat} (h : n.isValidChar) : (Char.ofNat n).val.toNat = n := by
  rw [Char.ofNat, dif_pos h]
  rfl

theorem ofNat_eq_of_toNat {n : Nat} (byte : UInt8) (h : n = byte.toNat) : UInt8.ofNat n = byte := by
  rw [h, UInt8.ofNat_toNat]

/-- A byte below `80` is the encoding of the character with its number. -/
theorem encode_ofNat {a : UInt8} (ha : a < 0x80) :
    String.utf8EncodeChar (Char.ofNat a.toNat) = [a] := by
  have ha : a.toNat < 0x80 := UInt8.lt_iff_toNat_lt.1 ha
  unfold String.utf8EncodeChar
  dsimp only
  rw [toNat_val_ofNat (.inl (by omega)), if_pos (by omega), ofNat_eq_of_toNat a rfl]

theorem exists_encode_of_lt {c : Char} (hc : c.val < 0x80) :
    ∃ a, a < 0x80 ∧ String.utf8EncodeChar c = [a] := by
  have hc : c.val.toNat < 0x80 := UInt32.lt_iff_toNat_lt.1 hc
  refine ⟨UInt8.ofNat c.val.toNat, UInt8.lt_iff_toNat_lt.2 ?_, if_pos (by omega)⟩
  simp only [UInt8.toNat_ofNat', UInt8.reduceToNat]
  omega

theorem exists_encode_two {a b : UInt8} (ha : 0xC2 ≤ a.toNat ∧ a.toNat < 0xE0)
    (hb : 0x80 ≤ b.toNat ∧ b.toNat ≤ 0xBF) : ∃ c, String.utf8EncodeChar c = [a, b] := by
  refine ⟨Char.ofNat ((a.toNat - 0xC0) * 64 + (b.toNat - 0x80)), ?_⟩
  unfold String.utf8EncodeChar
  dsimp only
  rw [toNat_val_ofNat (.inl (by omega)), if_neg (by omega), if_pos (by omega),
    ofNat_eq_of_toNat a (by omega), ofNat_eq_of_toNat b (by omega)]

theorem exists_encode_three {a b d : UInt8} (ha : 0xE0 ≤ a.toNat ∧ a.toNat < 0xF0)
    (hb : 0x80 ≤ b.toNat ∧ b.toNat ≤ 0xBF) (hd : 0x80 ≤ d.toNat ∧ d.toNat ≤ 0xBF)
    (hlong : a.toNat = 0xE0 → 0xA0 ≤ b.toNat) (hsurrogate : a.toNat = 0xED → b.toNat ≤ 0x9F) :
    ∃ c, String.utf8EncodeChar c = [a, b, d] := by
  obtain ⟨n, hn⟩ : ∃ n, n = (a.toNat - 0xE0) * 4096 + (b.toNat - 0x80) * 64 + (d.toNat - 0x80) :=
    ⟨_, rfl⟩
  have hvalid : n.isValidChar := by
    unfold Nat.isValidChar
    omega
  refine ⟨Char.ofNat n, ?_⟩
  unfold String.utf8EncodeChar
  dsimp only
  rw [toNat_val_ofNat hvalid, if_neg (by omega), if_neg (by omega), if_pos (by omega),
    ofNat_eq_of_toNat a (by omega), ofNat_eq_of_toNat b (by omega),
    ofNat_eq_of_toNat d (by omega)]

theorem exists_encode_four {a b d e : UInt8} (ha : 0xF0 ≤ a.toNat ∧ a.toNat ≤ 0xF4)
    (hb : 0x80 ≤ b.toNat ∧ b.toNat ≤ 0xBF) (hd : 0x80 ≤ d.toNat ∧ d.toNat ≤ 0xBF)
    (he : 0x80 ≤ e.toNat ∧ e.toNat ≤ 0xBF) (hlong : a.toNat = 0xF0 → 0x90 ≤ b.toNat)
    (hlarge : a.toNat = 0xF4 → b.toNat ≤ 0x8F) :
    ∃ c, String.utf8EncodeChar c = [a, b, d, e] := by
  obtain ⟨n, hn⟩ : ∃ n, n = (a.toNat - 0xF0) * 262144 + (b.toNat - 0x80) * 4096 +
      (d.toNat - 0x80) * 64 + (e.toNat - 0x80) := ⟨_, rfl⟩
  have hvalid : n.isValidChar := by
    unfold Nat.isValidChar
    omega
  refine ⟨Char.ofNat n, ?_⟩
  unfold String.utf8EncodeChar
  dsimp only
  rw [toNat_val_ofNat hvalid, if_neg (by omega), if_neg (by omega), if_neg (by omega),
    ofNat_eq_of_toNat a (by omega), ofNat_eq_of_toNat b (by omega),
    ofNat_eq_of_toNat d (by omega), ofNat_eq_of_toNat e (by omega)]

/-- A lead byte with what it asks for is an encoding. This is the converse of
`encode_eq_cons`: the bounds of the table are wide enough for every character and
let through nothing else. -/
theorem exists_encode_of_fills {first : UInt8} {rest : List UInt8} {lead : Lead}
    (hlead : lead? first = some lead) (hrest : Fills lead.due lead.low lead.high rest) :
    ∃ c, String.utf8EncodeChar c = first :: rest := by
  obtain ⟨rfl, ha⟩ | ⟨rfl, ha⟩ | ⟨rfl, ha⟩ | ⟨rfl, ha⟩ | ⟨rfl, ha⟩ | ⟨rfl, ha⟩ | ⟨rfl, ha⟩ :=
    lead?_eq_some_iff.1 hlead
  all_goals
    obtain ⟨b, _, rfl, hb, hb', hrest⟩ := hrest.exists_cons
    simp only [UInt8.reduceToNat] at hb hb'
  case inl => -- one byte is due
    cases hrest
    exact exists_encode_two ha ⟨hb, hb'⟩
  all_goals
    obtain ⟨d, _, rfl, hd, hd', hrest⟩ := hrest.exists_cons
  case inr.inl | inr.inr.inl | inr.inr.inr.inl => -- two bytes are due
    cases hrest
    exact exists_encode_three (by omega) (by omega) ⟨hd, hd'⟩ (by omega) (by omega)
  all_goals -- three bytes are due
    obtain ⟨e, _, rfl, he, he', hrest⟩ := hrest.exists_cons
    cases hrest
    exact exists_encode_four (by omega) (by omega) ⟨hd, hd'⟩ ⟨he, he'⟩ (by omega) (by omega)

/-! ## Lists that begin with an encoding -/

/-- A list begins with the encoding of some character. -/
def Begins (bytes : List UInt8) : Prop :=
  ∃ c, String.utf8EncodeChar c <+: bytes

/-- Whether a list begins with an encoding shows in its first byte and in
what fits after it. So it is decided by counting, with no character at hand, and
it is through this that the automaton and the longest front meet. -/
theorem begins_cons_iff {first : UInt8} {rest : List UInt8} : Begins (first :: rest) ↔
    first < 0x80 ∨
      ∃ lead, lead? first = some lead ∧ fits lead.due lead.low lead.high rest = lead.due := by
  constructor
  · intro ⟨c, hfront⟩
    obtain ⟨bytes, hc⟩ := exists_encode_eq_cons hfront
    rw [hc] at hfront
    obtain ⟨more, hmore⟩ := hfront
    rcases encode_eq_cons hc with ⟨hascii, -⟩ | ⟨lead, hlead, hbytes⟩
    · exact .inl hascii
    · have hrest := (List.cons.inj hmore).2.symm
      exact .inr ⟨lead, hlead, fits_eq_due_iff.2 ⟨bytes, more, hrest, hbytes⟩⟩
  · rintro (hascii | ⟨lead, hlead, hfits⟩)
    · exact ⟨_, rest, by rw [encode_ofNat hascii, List.singleton_append]⟩
    · obtain ⟨bytes, more, rfl, hbytes⟩ := fits_eq_due_iff.1 hfits
      obtain ⟨c, hc⟩ := exists_encode_of_fills hlead hbytes
      exact ⟨c, more, by rw [hc, List.cons_append]⟩

theorem Begins.append {bytes : List UInt8} (h : Begins bytes) (more : List UInt8) :
    Begins (bytes ++ more) := by
  obtain ⟨c, hc⟩ := h
  exact ⟨c, hc.trans (List.prefix_append _ _)⟩

/-- The character whose encoding a list begins with, as the standard library
finds it. -/
def decode? (bytes : List UInt8) : Option Char :=
  bytes.toByteArray.utf8DecodeChar? 0

/-- Decoding finds a character exactly where its encoding stands. So what is proved of
decoding speaks of encodings, and of the standard library's arithmetic only through them. -/
theorem decode?_eq_some_iff {bytes : List UInt8} {c : Char} :
    decode? bytes = some c ↔ String.utf8EncodeChar c <+: bytes := by
  constructor
  · intro h
    obtain ⟨more, hmore⟩ := ByteArray.exists_of_utf8DecodeChar?_eq_some h
    have hlist := congrArg (fun b => b.data.toList) hmore
    exact ⟨more.data.toList, by simpa using hlist.symm⟩
  · intro h
    obtain ⟨more, rfl⟩ := h
    rw [decode?, List.toByteArray_append]
    exact ByteArray.utf8DecodeChar?_utf8EncodeChar_append

theorem decode?_eq_none_iff {bytes : List UInt8} : decode? bytes = none ↔ ¬Begins bytes := by
  simp only [Option.eq_none_iff_forall_ne_some, Begins, ne_eq, decode?_eq_some_iff, not_exists]

instance (bytes : List UInt8) : Decidable (Begins bytes) :=
  decidable_of_iff ((decode? bytes).isSome) (by
    simp only [Option.isSome_iff_exists, Begins, decode?_eq_some_iff])

/-- A list begins with the encoding of one character at most. -/
theorem encode_prefix_unique {bytes : List UInt8} {c d : Char}
    (hc : String.utf8EncodeChar c <+: bytes) (hd : String.utf8EncodeChar d <+: bytes) : c = d :=
  Option.some.inj ((decode?_eq_some_iff.2 hc).symm.trans (decode?_eq_some_iff.2 hd))

/-- A byte below `80` is all of the encoding that it begins. -/
theorem eq_ofNat_of_encode {c : Char} {first : UInt8} {rest : List UInt8}
    (h : String.utf8EncodeChar c = first :: rest) (hascii : first < 0x80) :
    c = Char.ofNat first.toNat := by
  have hc : String.utf8EncodeChar (Char.ofNat first.toNat) <+: first :: rest := by
    rw [encode_ofNat hascii]
    exact List.prefix_append [_] _
  exact encode_prefix_unique ⟨[], by rw [h, List.append_nil]⟩ hc

/-- The width that the first byte announces is that of the encoding it begins. -/
theorem sequenceWidth_of_encode {c : Char} {first : UInt8} {rest : List UInt8}
    (h : String.utf8EncodeChar c = first :: rest) : sequenceWidth first = c.utf8Size := by
  rw [← String.length_utf8EncodeChar c, h, List.length_cons]
  obtain ⟨hascii, rfl⟩ | ⟨lead, hlead, hrest⟩ := encode_eq_cons h
  · exact if_pos hascii
  · rw [sequenceWidth_of_lead? hlead, hrest.length_eq]

end Utf8

end ByteLexer
