import ByteLexer.Proofs.Utf8.Front

/-!
# What the validator reports

Every list of bytes is some characters' encodings and then a rest that
begins with no character, in one way only (`undecoded`, `eq_undecoded`). It
is valid when nothing is left. Otherwise the validator reports the place
where the rest begins, and the malformed front of the rest, or no length
where the rest is a front as a whole (`validate_eq`).

The automaton is followed one character at a time: over an encoding it comes
back between characters (`defectFrom_encode`), and where no character begins
it stops with the defect (`defectFrom_of_not_begins`).

**What it takes as given.** Whether bytes are valid is asked of the standard
library, and the automaton is asked only where they cease to be. Nothing in the
definition keeps the two from disagreeing; that they do not is `validate_eq`, and
no later module follows the automaton again.
-/

namespace ByteLexer

namespace Utf8

/-- The encodings of some characters, one after the other. -/
def encodeAll (cs : List Char) : List UInt8 :=
  cs.flatMap String.utf8EncodeChar

@[simp] theorem encodeAll_nil : encodeAll [] = [] := rfl

@[simp] theorem encodeAll_cons (c : Char) (cs : List Char) :
    encodeAll (c :: cs) = String.utf8EncodeChar c ++ encodeAll cs := rfl

theorem encodeAll_concat (cs : List Char) (c : Char) :
    encodeAll (cs ++ [c]) = encodeAll cs ++ String.utf8EncodeChar c := by
  rw [encodeAll, encodeAll, List.flatMap_append, List.flatMap_singleton]

/-- A character that is encoded in one byte is there where this byte is. -/
theorem mem_encodeAll_iff {c : Char} {byte : UInt8} (hbyte : String.utf8EncodeChar c = [byte])
    (hascii : byte < 0x80) {cs : List Char} : byte ∈ encodeAll cs ↔ c ∈ cs := by
  rw [encodeAll, List.mem_flatMap]
  constructor
  · rintro ⟨d, hd, hmem⟩
    have hencode := encode_of_mem hmem hascii
    rwa [eq_ofNat_of_encode hbyte hascii, ← eq_ofNat_of_encode hencode hascii]
  · intro hc
    exact ⟨c, hc, hbyte ▸ List.mem_singleton_self byte⟩

theorem not_begins_nil : ¬Begins [] := by
  intro ⟨c, hc⟩
  exact String.utf8EncodeChar_ne_nil (List.prefix_nil.1 hc)

/-! ## The automaton, one character at a time -/

/-- Inside a character, the automaton takes what is due and is between
characters again. -/
theorem defectFrom_fills {due : Nat} {low high : UInt8} {more : List UInt8}
    (h : Fills due low high more) (hdue : 0 < due) (start taken : Nat) (rest : List UInt8) :
    defectFrom (.inside due low high) start taken (more ++ rest) =
      defectFrom .between (start + taken + due) 0 rest := by
  induction h generalizing taken with
  | none => cases hdue
  | @next due low high byte more hlow hhigh hmore ih =>
    rw [List.cons_append, defectFrom, State.next?, if_pos ⟨hlow, hhigh⟩]
    cases due with
    | zero => cases hmore; rfl
    | succ due =>
      rw [if_neg (by omega)]
      exact (ih (by omega) (taken + 1)).trans (by rw [show start + (taken + 1) + (due + 1) =
        start + taken + (due + 1 + 1) by omega])

/-- Inside a character, the automaton stops at the first byte that does not
fit, or at the end. -/
theorem defectFrom_of_fits_lt {due : Nat} {low high : UInt8} {bytes : List UInt8}
    (h : fits due low high bytes < due) (start taken : Nat) :
    defectFrom (.inside due low high) start taken bytes =
      ⟨start, if fits due low high bytes = bytes.length then none
        else some (max (taken + fits due low high bytes) 1)⟩ := by
  fun_induction fits due low high bytes generalizing taken with
  | case1 => cases h
  | case2 => rfl
  | case3 due low high byte rest hbyte ih =>
    have hdue : ¬due.succ ≤ 1 := by omega
    rw [defectFrom, State.next?, if_pos hbyte, if_neg hdue]
    refine (ih (by omega) (taken + 1)).trans ?_
    simp only [List.length_cons, Nat.add_right_cancel_iff,
      show taken + 1 + fits due 0x80 0xBF rest = taken + (fits due 0x80 0xBF rest + 1) by omega]
  | case4 due low high byte rest hbyte =>
    rw [defectFrom, State.next?, if_neg hbyte]
    rfl

/-- Between characters, the automaton passes over an encoding. -/
theorem defectFrom_encode (c : Char) (start : Nat) (rest : List UInt8) :
    defectFrom .between start 0 (String.utf8EncodeChar c ++ rest) =
      defectFrom .between (start + c.utf8Size) 0 rest := by
  rw [← String.length_utf8EncodeChar c]
  cases hc : String.utf8EncodeChar c with
  | nil => exact absurd hc String.utf8EncodeChar_ne_nil
  | cons first more =>
    obtain ⟨hascii, rfl⟩ | ⟨lead, hlead, hmore⟩ := encode_eq_cons hc
    · rw [List.singleton_append, defectFrom, State.next?, if_pos hascii]
      rfl
    · rw [List.cons_append, defectFrom, State.next?, if_neg (not_lt_of_lead? hlead), hlead]
      refine (defectFrom_fills hmore (lead?_bounds hlead).1 start 1 rest).trans ?_
      rw [List.length_cons, hmore.length_eq, Nat.add_assoc, Nat.add_comm 1]

/-- Between characters, where none begins, the automaton stops with the
malformed front, or with no length where the bytes end inside a character. In the
second case what is missing could still come, so it is not for the automaton to say
how much is malformed. -/
theorem defectFrom_of_not_begins {bytes : List UInt8} (hne : bytes ≠ []) (h : ¬Begins bytes)
    (start : Nat) :
    defectFrom .between start 0 bytes =
      ⟨start, if IsFront bytes then none else some (malformedLength bytes)⟩ := by
  obtain ⟨first, rest, rfl⟩ := List.exists_cons_of_ne_nil hne
  simp only [begins_cons_iff, not_or, not_exists, not_and] at h
  obtain ⟨hascii, hfits⟩ := h
  rw [defectFrom, State.next?, if_neg hascii]
  cases hlead : lead? first with
  | none =>
    have hfront : ¬IsFront (first :: rest) := by
      simp [isFront_cons_iff, hascii, hlead]
    simp [if_neg hfront, malformedLength, longestFront_of_lead?_eq_none hascii hlead]
  | some lead =>
    have hlt : fits lead.due lead.low lead.high rest < lead.due :=
      Nat.lt_of_le_of_ne (fits_le_due _ _ _ _) (hfits lead hlead)
    have hfront : IsFront (first :: rest) ↔
        fits lead.due lead.low lead.high rest = rest.length := by
      simp [isFront_cons_iff, hascii, hlead]
    refine (defectFrom_of_fits_lt hlt start 1).trans ?_
    simp only [hfront, malformedLength, longestFront_of_lead? hlead, Nat.add_comm 1, Nat.max_comm]

theorem defectFrom_encodeAll (cs : List Char) (start : Nat) (rest : List UInt8) :
    defectFrom .between start 0 (encodeAll cs ++ rest) =
      defectFrom .between (start + (encodeAll cs).length) 0 rest := by
  induction cs generalizing start with
  | nil => rfl
  | cons c cs ih =>
    rw [encodeAll_cons, List.append_assoc, defectFrom_encode, ih, List.length_append,
      String.length_utf8EncodeChar, Nat.add_assoc]

/-! ## Characters and what is left -/

/-- What is left of the bytes after all characters at their front. It is empty
for valid bytes and for no others, and elsewhere it begins where the first defect
does. -/
def undecoded (bytes : List UInt8) : List UInt8 :=
  match _h : decode? bytes with
  | some c => undecoded (bytes.drop c.utf8Size)
  | none => bytes
termination_by bytes.length
decreasing_by
  have hle := (decode?_eq_some_iff.1 _h).length_le
  rw [String.length_utf8EncodeChar] at hle
  have := c.utf8Size_pos
  rw [List.length_drop]
  omega

theorem undecoded_encode (c : Char) (rest : List UInt8) :
    undecoded (String.utf8EncodeChar c ++ rest) = undecoded rest := by
  have h := decode?_eq_some_iff.2 (List.prefix_append (String.utf8EncodeChar c) rest)
  have hdrop : (String.utf8EncodeChar c ++ rest).drop c.utf8Size = rest :=
    List.drop_left' (String.length_utf8EncodeChar c)
  rw [undecoded]
  split
  · rename_i d hd
    rw [h] at hd
    cases hd
    rw [hdrop]
  · rename_i hnone
    rw [h] at hnone
    cases hnone

theorem undecoded_of_not_begins {bytes : List UInt8} (h : ¬Begins bytes) :
    undecoded bytes = bytes := by
  rw [undecoded]
  split
  · rename_i c hc
    exact absurd ⟨c, decode?_eq_some_iff.1 hc⟩ h
  · rfl

theorem undecoded_encodeAll (cs : List Char) (rest : List UInt8) :
    undecoded (encodeAll cs ++ rest) = undecoded rest := by
  induction cs with
  | nil => rfl
  | cons c cs ih => rw [encodeAll_cons, List.append_assoc, undecoded_encode, ih]

/-- The bytes are some characters and what is left, which begins with none. -/
theorem exists_eq_encodeAll (bytes : List UInt8) :
    ∃ cs, bytes = encodeAll cs ++ undecoded bytes ∧ ¬Begins (undecoded bytes) := by
  fun_induction undecoded bytes with
  | case1 bytes c h ih =>
    obtain ⟨cs, hcs, hrest⟩ := ih
    obtain ⟨rest, rfl⟩ := decode?_eq_some_iff.1 h
    rw [List.drop_left' (String.length_utf8EncodeChar c)] at hcs hrest ⊢
    refine ⟨c :: cs, ?_, hrest⟩
    rw [encodeAll_cons, List.append_assoc, ← hcs]
  | case2 bytes h => exact ⟨[], rfl, decode?_eq_none_iff.1 h⟩

/-- Valid bytes in front have no part in what is left. -/
theorem undecoded_append {bytes : List UInt8} (h : undecoded bytes = []) (more : List UInt8) :
    undecoded (bytes ++ more) = undecoded more := by
  obtain ⟨cs, hcs, -⟩ := exists_eq_encodeAll bytes
  rw [h, List.append_nil] at hcs
  rw [hcs, undecoded_encodeAll]

theorem length_undecoded_le (bytes : List UInt8) : (undecoded bytes).length ≤ bytes.length := by
  obtain ⟨cs, hcs, -⟩ := exists_eq_encodeAll bytes
  conv => rhs; rw [hcs, List.length_append]
  exact Nat.le_add_left _ _

/-- There is one way only to take the characters off the bytes. -/
theorem eq_undecoded (cs : List Char) {rest : List UInt8} (h : ¬Begins rest) :
    undecoded (encodeAll cs ++ rest) = rest := by
  rw [undecoded_encodeAll, undecoded_of_not_begins h]

theorem undecoded_append_singleton {body : List UInt8} {byte : UInt8} (hascii : byte < 0x80)
    (hne : undecoded (body ++ [byte]) ≠ []) :
    ¬IsFront (undecoded (body ++ [byte])) ∧
      malformedLength (undecoded (body ++ [byte])) < (undecoded (body ++ [byte])).length := by
  obtain ⟨cs, hcs, hbegins⟩ := exists_eq_encodeAll (body ++ [byte])
  generalize undecoded (body ++ [byte]) = left at hne hcs hbegins ⊢
  have hmem : byte ∈ left := by
    have hlast := congrArg List.getLast? hcs
    rw [List.getLast?_append, List.getLast?_append, List.getLast?_eq_some_getLast hne] at hlast
    have hbyte : byte = left.getLast hne := Option.some.inj hlast
    rw [hbyte]
    exact List.getLast_mem hne
  -- one byte alone would be a character
  have hsingle : left ≠ [byte] := by
    intro hleft
    apply hbegins
    rw [hleft, begins_cons_iff]
    exact .inl hascii
  have hfront : ¬IsFront left := by
    intro h
    exact hsingle (h.eq_singleton hmem hascii)
  refine ⟨hfront, Nat.max_lt.2 ⟨?_, longestFront_lt_length hfront⟩⟩
  by_contra hshort
  obtain ⟨other, hother⟩ : ∃ other, left = [other] :=
    List.length_eq_one_iff.1 (by have := List.length_pos_iff.2 hne; omega)
  rw [hother, List.mem_singleton] at hmem
  exact hsingle (hmem ▸ hother)

/-- What is left of bytes that end with a byte below `80` is malformed before
that byte, and in the same way whatever follows it. So a quoted string with its
closing mark in view can be judged without looking beyond the mark. -/
theorem undecoded_closed {body : List UInt8} {byte : UInt8} (hascii : byte < 0x80)
    (hne : undecoded (body ++ [byte]) ≠ []) (tail : List UInt8) :
    ¬Begins (undecoded (body ++ [byte]) ++ tail) ∧
      malformedLength (undecoded (body ++ [byte]) ++ tail) =
        malformedLength (undecoded (body ++ [byte])) ∧
      malformedLength (undecoded (body ++ [byte])) < (undecoded (body ++ [byte])).length := by
  obtain ⟨hfront, hshort⟩ := undecoded_append_singleton hascii hne
  obtain ⟨cs, -, hbegins⟩ := exists_eq_encodeAll (body ++ [byte])
  refine ⟨not_begins_append hbegins hfront tail, ?_, hshort⟩
  rw [malformedLength, longestFront_append hfront, malformedLength]

/-! ## Validation -/

/-- The bytes are valid when they are the encodings of some characters. -/
theorem isValidUTF8_iff {bytes : List UInt8} :
    bytes.toByteArray.IsValidUTF8 ↔ ∃ cs, bytes = encodeAll cs := by
  constructor
  · intro ⟨cs, hcs⟩
    have hlist := congrArg (fun b => b.data.toList) hcs
    exact ⟨cs, by simpa [List.utf8Encode, encodeAll] using hlist⟩
  · rintro ⟨cs, rfl⟩
    exact ⟨cs, rfl⟩

/-- The bytes are valid when nothing of them is left. -/
theorem isValidUTF8_iff_undecoded {bytes : List UInt8} :
    bytes.toByteArray.IsValidUTF8 ↔ undecoded bytes = [] := by
  rw [isValidUTF8_iff]
  constructor
  · rintro ⟨cs, rfl⟩
    have h := eq_undecoded cs not_begins_nil
    rwa [List.append_nil] at h
  · intro h
    obtain ⟨cs, hcs, -⟩ := exists_eq_encodeAll bytes
    rw [h, List.append_nil] at hcs
    exact ⟨cs, hcs⟩

/-- The text that the bytes encode, and none where they are not valid. -/
def text (bytes : List UInt8) : String :=
  (String.fromUTF8? bytes.toByteArray).getD ""

@[simp] theorem text_encodeAll (cs : List Char) : text (encodeAll cs) = String.ofList cs := by
  have h : (encodeAll cs).toByteArray.IsValidUTF8 := isValidUTF8_iff.2 ⟨cs, rfl⟩
  unfold text String.fromUTF8?
  rw [dif_pos h]
  rfl

/-- Valid bytes are the bytes of their text. -/
theorem toByteArray_text {bytes : List UInt8} (h : undecoded bytes = []) :
    (text bytes).toByteArray = bytes.toByteArray := by
  have hvalid := isValidUTF8_iff_undecoded.2 h
  unfold text String.fromUTF8?
  rw [dif_pos hvalid]
  rfl

/-- Bytes below `80` are valid. -/
theorem undecoded_of_ascii {bytes : List UInt8} (h : ∀ byte ∈ bytes, byte < 0x80) :
    undecoded bytes = [] := by
  induction bytes with
  | nil => exact undecoded_of_not_begins not_begins_nil
  | cons byte bytes ih =>
    have hbyte := undecoded_encode (Char.ofNat byte.toNat) bytes
    rw [encode_ofNat (h byte List.mem_cons_self), List.singleton_append] at hbyte
    rw [hbyte]
    exact ih fun b hb => h b (List.mem_cons_of_mem _ hb)

/-- Validation gives the text, or the place where what is left begins with
its malformed front, or no length when all that is left is a front. This is all that
is known of the validator outside this module, and it speaks of encodings only. -/
theorem validate_eq (bytes : List UInt8) :
    validate bytes.toByteArray =
      match undecoded bytes with
      | [] => .ok (text bytes)
      | left => .error ⟨bytes.length - left.length,
          if IsFront left then none else some (malformedLength left)⟩ := by
  obtain ⟨cs, hcs, hbegins⟩ := exists_eq_encodeAll bytes
  cases hleft : undecoded bytes with
  | nil =>
    have hvalid := isValidUTF8_iff_undecoded.2 hleft
    unfold validate text String.fromUTF8?
    rw [dif_pos hvalid, dif_pos hvalid]
    rfl
  | cons byte left =>
    have hvalid : ¬bytes.toByteArray.IsValidUTF8 := by
      rw [isValidUTF8_iff_undecoded, hleft]
      exact List.cons_ne_nil _ _
    rw [hleft] at hcs hbegins
    have hdefect : firstDefect bytes = ⟨(encodeAll cs).length,
        if IsFront (byte :: left) then none else some (malformedLength (byte :: left))⟩ := by
      rw [hcs, firstDefect, defectFrom_encodeAll, Nat.zero_add]
      exact defectFrom_of_not_begins (List.cons_ne_nil _ _) hbegins _
    have hlength : bytes.length - (byte :: left).length = (encodeAll cs).length := by
      rw [hcs, List.length_append, Nat.add_sub_cancel]
    unfold validate
    rw [dif_neg hvalid, List.toList_data_toByteArray, hdefect]
    dsimp only
    rw [hlength]

theorem validate_of_ne_nil {bytes left : List UInt8} (hleft : undecoded bytes = left)
    (hne : left ≠ []) : validate bytes.toByteArray =
      .error ⟨bytes.length - left.length,
        if IsFront left then none else some (malformedLength left)⟩ := by
  obtain ⟨byte, more, rfl⟩ := List.exists_cons_of_ne_nil hne
  rw [validate_eq, hleft]

/-- A defect without a length goes on to the end, and has the length of its
malformed front there too. -/
theorem getD_malformedLength {left : List UInt8} (h : left ≠ []) :
    (if IsFront left then none else some (malformedLength left)).getD left.length =
      malformedLength left := by
  by_cases hfront : IsFront left
  · have hpos := List.length_pos_iff.2 h
    rw [if_pos hfront, Option.getD_none, malformedLength, hfront.longestFront_eq,
      Nat.max_eq_right hpos]
  · rw [if_neg hfront, Option.getD_some]

end Utf8

end ByteLexer
