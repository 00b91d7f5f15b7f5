import ByteLexer.Proofs.Text.Controls
import ByteLexer.Proofs.Text.Decimal
import ByteLexer.Text.Json
import Mathlib.Data.List.Basic
import Mathlib.Data.Nat.Init

/-!
# JSON read back

A reader for the objects of JSON that hold strings and whole numbers, written without
spaces, and the fact that it gives back whatever is written (`object?_object`). It knows
a part of JSON only, but it reads that part as JSON is read. All escapes are known to
it: those by name, the solidus among them, and code units in four hexadecimal digits
of either case, two of which make a character beyond the first plane while one of the
two alone is refused. A control character that stands as itself is refused too.

An escape cannot be taken for anything else: after a backslash the reader looks at the
very next character, and a backslash or a quotation mark of the text is never written
as itself. So each character is read back before what stands behind it is looked at
(`character?_append`), and the text follows by induction.

What is written holds no character below U+0020 (`uncontrolled_object`), and no line
feed with that.

**What it does not establish.** How a text was spelled is not read back: the reader knows more
escapes than are written, and what it gives for an object does not say which were used. It
knows no space between the marks, no values but strings and whole numbers, and no objects or
arrays within others. Members come back in order, and a key that stands twice comes back
twice. Numbers are as large as they are, which a reader that holds them in words need not
grant.
-/

namespace ByteLexer

namespace Json

/-- What an object holds under a key. -/
inductive Value where
  | string (text : String)
  | number (n : Nat)
  deriving DecidableEq, Repr

/-! ## The reader -/

/-- The value of a hexadecimal digit. -/
def hexDigit? (c : Char) : Option Nat :=
  if '0' ≤ c ∧ c ≤ '9' then some (c.toNat - '0'.toNat)
  else if 'a' ≤ c ∧ c ≤ 'f' then some (c.toNat - 'a'.toNat + 10)
  else if 'A' ≤ c ∧ c ≤ 'F' then some (c.toNat - 'A'.toNat + 10)
  else none

/-- A code unit in four hexadecimal digits, and what stands behind it. -/
def codeUnit? : List Char → Option (Nat × List Char)
  | a :: b :: c :: d :: rest => do
    let high := 16 * (← hexDigit? a) + (← hexDigit? b)
    let low := 16 * (← hexDigit? c) + (← hexDigit? d)
    return (256 * high + low, rest)
  | _ => none

/-- The second code unit of a pair, and what stands behind it. -/
def secondUnit? : List Char → Option (Nat × List Char)
  | '\\' :: 'u' :: rest =>
    (codeUnit? rest).filter fun (unit, _) => 0xDC00 ≤ unit ∧ unit < 0xE000
  | _ => none

/-- A character by its code units: one, or the two of a pair. -/
def byCode? (text : List Char) : Option (Char × List Char) := do
  let (unit, rest) ← codeUnit? text
  if unit < 0xD800 ∨ 0xE000 ≤ unit then return (Char.ofNat unit, rest)
  else if 0xDC00 ≤ unit then none
  else
    let (second, rest) ← secondUnit? rest
    return (Char.ofNat (0x10000 + 0x400 * (unit - 0xD800) + (second - 0xDC00)), rest)

/-- The characters that are escaped by name. -/
def byName : List (Char × Char) :=
  [('\x22', '\x22'), ('\\', '\\'), ('/', '/'), ('b', '\x08'), ('f', '\x0c'), ('n', '\n'),
   ('r', '\r'), ('t', '\t')]

/-- A character of a string, and what stands behind it. -/
def character? : List Char → Option (Char × List Char)
  | '\\' :: 'u' :: rest => byCode? rest
  | '\\' :: name :: rest => (byName.lookup name).map (·, rest)
  | c :: rest => if c = '\x22' ∨ c = '\\' ∨ c.toNat < 0x20 then none else some (c, rest)
  | [] => none

theorem length_of_codeUnit? {text rest : List Char} {unit : Nat}
    (h : codeUnit? text = some (unit, rest)) : rest.length < text.length := by
  unfold codeUnit? at h
  split at h
  · simp only [Option.bind_eq_bind, Option.bind_eq_some_iff, Option.pure_def, Option.some.injEq,
      Prod.mk.injEq] at h
    obtain ⟨_, -, _, -, _, -, _, -, -, rfl⟩ := h
    simp only [List.length_cons]
    omega
  · cases h

theorem length_of_secondUnit? {text rest : List Char} {unit : Nat}
    (h : secondUnit? text = some (unit, rest)) : rest.length < text.length := by
  unfold secondUnit? at h
  split at h
  · have hlt := length_of_codeUnit? (Option.filter_eq_some_iff.1 h).1
    simp only [List.length_cons]
    omega
  · cases h

theorem length_of_byCode? {text rest : List Char} {c : Char}
    (h : byCode? text = some (c, rest)) : rest.length < text.length := by
  unfold byCode? at h
  obtain ⟨⟨unit, behind⟩, hunit, h⟩ := Option.bind_eq_some_iff.1 h
  have hbehind := length_of_codeUnit? hunit
  dsimp only at h
  split at h
  · rw [Option.pure_def, Option.some.injEq, Prod.mk.injEq] at h
    exact h.2 ▸ hbehind
  · split at h
    · cases h
    · obtain ⟨⟨second, last⟩, hsecond, h⟩ := Option.bind_eq_some_iff.1 h
      rw [Option.pure_def, Option.some.injEq, Prod.mk.injEq] at h
      obtain ⟨-, rfl⟩ := h
      exact Nat.lt_trans (length_of_secondUnit? hsecond) hbehind

/-- A character takes something. -/
theorem length_of_character? {text rest : List Char} {c : Char}
    (h : character? text = some (c, rest)) : rest.length < text.length := by
  unfold character? at h
  split at h
  · have hlt := length_of_byCode? h
    simp only [List.length_cons]
    omega
  · obtain ⟨_, -, h⟩ := Option.map_eq_some_iff.1 h
    cases h
    simp only [List.length_cons]
    omega
  · split at h
    · cases h
    · cases h
      exact Nat.lt_succ_self _
  · cases h

/-- The characters up to the mark that closes a string, and what stands behind the mark. -/
def characters? (text : List Char) : Option (List Char × List Char) :=
  match _h : character? text with
  | some (c, rest) => (characters? rest).map fun (cs, behind) => (c :: cs, behind)
  | none =>
    match text with
    | '\x22' :: rest => some ([], rest)
    | _ => none
termination_by text.length
decreasing_by exact length_of_character? _h

theorem length_of_characters? {text behind : List Char} {cs : List Char}
    (h : characters? text = some (cs, behind)) : behind.length < text.length := by
  fun_induction characters? text generalizing cs with
  | case1 text c rest hread ih =>
    obtain ⟨⟨cs, last⟩, hrest, h⟩ := Option.map_eq_some_iff.1 h
    cases h
    exact Nat.lt_trans (ih hrest) (length_of_character? hread)
  | case2 rest =>
    cases h
    exact Nat.lt_succ_self _
  | case3 => cases h

/-- A string, and what stands behind it. -/
def string? : List Char → Option (String × List Char)
  | '\x22' :: rest => (characters? rest).map fun (cs, behind) => (String.ofList cs, behind)
  | _ => none

/-- A whole number, and what stands behind it. -/
def number? (text : List Char) : Option (Nat × List Char) :=
  (decimal? (text.takeWhile Char.isDigit)).map (·, text.dropWhile Char.isDigit)

/-- A value, and what stands behind it. -/
def value? (text : List Char) : Option (Value × List Char) :=
  match string? text with
  | some (value, rest) => some (.string value, rest)
  | none => (number? text).map fun (n, rest) => (.number n, rest)

/-- A key with its value, and what stands behind them. -/
def member? (text : List Char) : Option ((String × Value) × List Char) := do
  match ← string? text with
  | (key, ':' :: rest) => (value? rest).map fun (value, rest) => ((key, value), rest)
  | _ => none

theorem length_of_string? {text rest : List Char} {value : String}
    (h : string? text = some (value, rest)) : rest.length < text.length := by
  unfold string? at h
  split at h
  · obtain ⟨⟨cs, behind⟩, hcs, h⟩ := Option.map_eq_some_iff.1 h
    cases h
    exact Nat.lt_succ_of_lt (length_of_characters? hcs)
  · cases h

theorem length_of_value? {text rest : List Char} {value : Value}
    (h : value? text = some (value, rest)) : rest.length ≤ text.length := by
  unfold value? at h
  split at h
  · rename_i hstring
    cases h
    exact Nat.le_of_lt (length_of_string? hstring)
  · obtain ⟨⟨n, behind⟩, hn, h⟩ := Option.map_eq_some_iff.1 h
    cases h
    obtain ⟨_, -, hn⟩ := Option.map_eq_some_iff.1 hn
    cases hn
    exact (List.dropWhile_suffix _).length_le

theorem length_of_member? {text rest : List Char} {member : String × Value}
    (h : member? text = some (member, rest)) : rest.length < text.length := by
  unfold member? at h
  obtain ⟨⟨key, behind⟩, hkey, h⟩ := Option.bind_eq_some_iff.1 h
  have hlt := length_of_string? hkey
  dsimp only at h
  split at h
  · rename_i heq
    cases heq
    obtain ⟨⟨value, last⟩, hvalue, h⟩ := Option.map_eq_some_iff.1 h
    cases h
    exact Nat.lt_of_le_of_lt (length_of_value? hvalue) (Nat.lt_of_succ_lt hlt)
  · cases h

/-- The members up to the brace that closes an object, with nothing behind it. -/
def members? (text : List Char) : Option (List (String × Value)) :=
  match _h : member? text with
  | some (member, ',' :: rest) => (members? rest).map (member :: ·)
  | some (member, ['\x7d']) => some [member]
  | _ => none
termination_by text.length
decreasing_by exact Nat.lt_trans (Nat.lt_succ_self _) (length_of_member? _h)

/-- The members of the object that a text is. -/
def object? (text : String) : Option (List (String × Value)) :=
  match text.toList with
  | '\x7b' :: rest => if rest = ['\x7d'] then some [] else members? rest
  | _ => none

/-! ## What is written -/

/-- The characters that a text is written with inside a string. -/
def escaped (cs : List Char) : List Char :=
  cs.flatMap fun c => (character c).toList

/-- A value as it is written. -/
def Value.written : Value → List Char
  | string text => (Json.string text).toList
  | number n => Nat.toDigits 10 n

/-- A key with its value as they are written, in front of what stands behind them. -/
def writtenMember (member : String × Value) (rest : List Char) : List Char :=
  (string member.1).toList ++ ':' :: (member.2.written ++ rest)

/-- The members of an object as they are written, up to the brace that closes it. -/
def writtenMembers : List (String × Value) → List Char
  | [] => ['\x7d']
  | [member] => writtenMember member ['\x7d']
  | member :: next :: members => writtenMember member (',' :: writtenMembers (next :: members))

/-- An object as it is written. -/
def object (members : List (String × Value)) : String :=
  String.ofList ('\x7b' :: writtenMembers members)

theorem toList_string (text : String) :
    (string text).toList = '\x22' :: (escaped text.toList ++ ['\x22']) := by
  have honto : ∀ (cs : List Char) (written : String),
      (cs.foldl (fun written c => written ++ character c) written).toList =
        written.toList ++ escaped cs := by
    intro cs
    induction cs with
    | nil => exact fun _ => (List.append_nil _).symm
    | cons c cs ih =>
      intro written
      rw [List.foldl_cons, ih, String.toList_append, escaped, escaped, List.flatMap_cons,
        List.append_assoc]
  rw [string, String.toList_append, honto]
  rfl

/-! ## What is written is read back -/

theorem hexDigit?_digitChar : ∀ n < 16, hexDigit? (Nat.digitChar n) = some n := by
  decide

theorem character?_named {c : Char} {escape : String} (h : (c, escape) ∈ named)
    (rest : List Char) : character? (escape.toList ++ rest) = some (c, rest) := by
  simp only [named, List.mem_cons, List.not_mem_nil, or_false, Prod.mk.injEq] at h
  rcases h with ⟨rfl, rfl⟩ | ⟨rfl, rfl⟩ | ⟨rfl, rfl⟩ | ⟨rfl, rfl⟩ | ⟨rfl, rfl⟩ | ⟨rfl, rfl⟩ |
    ⟨rfl, rfl⟩
  all_goals rfl

theorem character?_byCode {c : Char} (h : c.toNat < 0x20) (rest : List Char) :
    character? ((Json.byCode c).toList ++ rest) = some (c, rest) := by
  have htext : (Json.byCode c).toList ++ rest = '\\' :: 'u' :: '0' :: '0' ::
      Nat.digitChar (c.toNat / 16) :: Nat.digitChar (c.toNat % 16) :: rest := by
    simp only [Json.byCode, String.toList_append, String.toList_ofList]
    rfl
  have hunit : codeUnit? ('0' :: '0' :: Nat.digitChar (c.toNat / 16) ::
      Nat.digitChar (c.toNat % 16) :: rest) = some (c.toNat, rest) := by
    have hhigh := hexDigit?_digitChar (c.toNat / 16) (by omega)
    have hlow := hexDigit?_digitChar (c.toNat % 16) (by omega)
    have hzero : hexDigit? '0' = some 0 := rfl
    have hcode : 256 * (16 * 0 + 0) + (16 * (c.toNat / 16) + c.toNat % 16) = c.toNat := by omega
    simp only [codeUnit?, hzero, hhigh, hlow, Option.bind_eq_bind, Option.bind_some,
      Option.pure_def, hcode]
  have hscalar : c.toNat < 0xD800 ∨ 0xE000 ≤ c.toNat := .inl (by omega)
  rw [htext, character?, byCode?, hunit, Option.bind_eq_bind, Option.bind_some]
  dsimp only
  rw [if_pos hscalar, Char.ofNat_toNat]
  rfl

/-- A character that needs no escape stands for itself. -/
theorem character?_of_le {c : Char} (hname : named.lookup c = none) (hle : 0x20 ≤ c.toNat)
    (rest : List Char) : character? (c :: rest) = some (c, rest) := by
  have hquote : c ≠ '\x22' := by
    rintro rfl
    cases hname
  have hbackslash : c ≠ '\\' := by
    rintro rfl
    cases hname
  unfold character?
  split
  · rename_i heq
    exact absurd (List.cons.inj heq).1 hbackslash
  · rename_i heq
    exact absurd (List.cons.inj heq).1 hbackslash
  · rename_i heq
    obtain ⟨rfl, rfl⟩ := List.cons.inj heq
    rw [if_neg]
    rintro (h | h | h)
    · exact hquote h
    · exact hbackslash h
    · omega
  · rename_i heq
    cases heq

/-- **A character is read back**, whatever stands behind it. It is written in one of three ways,
by name, by its code or as itself, and in each the reader knows from the first characters
where it ends. That is what the string rests on: neither an escape nor a mark can come about
where one character meets the next. -/
theorem character?_append (c : Char) (rest : List Char) :
    character? ((character c).toList ++ rest) = some (c, rest) := by
  unfold character
  cases hescape : named.lookup c with
  | some escape => exact character?_named (mem_of_lookup hescape) rest
  | none =>
    dsimp only
    split
    · rename_i hlt
      exact character?_byCode hlt rest
    · rename_i hle
      rw [String.toList_singleton]
      exact character?_of_le hescape (Nat.not_lt.1 hle) rest

/-- Escapes that are never written are known to the reader: a pair, and the solidus. -/
example : character? "\\ud83D\\uDe00\\/".toList = some ('😀', ['\\', '/']) := by decide

theorem characters?_append (cs rest : List Char) :
    characters? (escaped cs ++ '\x22' :: rest) = some (cs, rest) := by
  induction cs with
  | nil =>
    rw [characters?]
    rfl
  | cons c cs ih =>
    have hread : character? (escaped (c :: cs) ++ '\x22' :: rest) =
        some (c, escaped cs ++ '\x22' :: rest) := by
      rw [escaped, List.flatMap_cons, List.append_assoc]
      exact character?_append c _
    rw [characters?]
    split
    · rename_i hother
      rw [hread, Option.some.injEq, Prod.mk.injEq] at hother
      obtain ⟨rfl, rfl⟩ := hother
      rw [ih]
      rfl
    · rename_i hother
      rw [hread] at hother
      cases hother

/-- A string is read back. -/
theorem string?_append (text : String) (rest : List Char) :
    string? ((string text).toList ++ rest) = some (text, rest) := by
  rw [toList_string, List.cons_append, List.append_assoc, string?, List.singleton_append,
    characters?_append, Option.map_some]
  dsimp only
  rw [String.ofList_toList]

theorem number?_append (n : Nat) {c : Char} (hc : c.isDigit = false) (rest : List Char) :
    number? (Nat.toDigits 10 n ++ c :: rest) = some (n, c :: rest) := by
  have hdigits := takeWhile_isDigit_toDigits n hc rest
  have hbehind : (Nat.toDigits 10 n ++ c :: rest).dropWhile Char.isDigit = c :: rest := by
    rw [List.dropWhile_append_of_pos fun _ => Nat.isDigit_of_mem_toDigits (by decide) (by decide),
      List.dropWhile_cons_of_neg (Bool.eq_false_iff.1 hc)]
  rw [number?, hdigits, hbehind, decimal?_eq_some_iff.2 rfl]
  rfl

/-- A value is read back, if no digit stands behind it. -/
theorem value?_append (value : Value) {c : Char} (hc : c.isDigit = false) (rest : List Char) :
    value? (value.written ++ c :: rest) = some (value, c :: rest) := by
  cases value with
  | string text => rw [value?, Value.written, string?_append]
  | number n =>
    have hnone : string? (Nat.toDigits 10 n ++ c :: rest) = none := by
      obtain ⟨d, digits, hdigits⟩ :=
        List.exists_cons_of_ne_nil (Nat.toDigits_ne_nil : Nat.toDigits 10 n ≠ [])
      have hmem : d ∈ Nat.toDigits 10 n := hdigits ▸ List.mem_cons_self
      have hd : d.isDigit = true := Nat.isDigit_of_mem_toDigits (by decide) (by decide) hmem
      rw [hdigits, List.cons_append]
      unfold string?
      split
      · rename_i heq
        obtain ⟨rfl, -⟩ := List.cons.inj heq
        cases hd
      · rfl
    rw [value?, Value.written, hnone, number?_append n hc rest]
    rfl

theorem member?_writtenMember (member : String × Value) {c : Char} (hc : c.isDigit = false)
    (rest : List Char) : member? (writtenMember member (c :: rest)) = some (member, c :: rest) := by
  simp only [member?, writtenMember, string?_append, Option.bind_eq_bind, Option.bind_some,
    value?_append member.2 hc rest, Option.map_some]

theorem members?_of_cons {text rest : List Char} {member : String × Value}
    (h : member? text = some (member, ',' :: rest)) :
    members? text = (members? rest).map (member :: ·) := by
  rw [members?]
  split
  · rename_i hother
    rw [h] at hother
    cases hother
    rfl
  · rename_i hother
    rw [h] at hother
    cases hother
  · rename_i hnot _
    exact absurd h (hnot _ _)

theorem members?_of_last {text : List Char} {member : String × Value}
    (h : member? text = some (member, ['\x7d'])) : members? text = some [member] := by
  rw [members?]
  split
  · rename_i hother
    rw [h] at hother
    cases hother
  · rename_i hother
    rw [h] at hother
    cases hother
    rfl
  · rename_i hnot
    exact absurd h (hnot _)

theorem members?_writtenMembers (member : String × Value) (members : List (String × Value)) :
    members? (writtenMembers (member :: members)) = some (member :: members) := by
  induction members generalizing member with
  | nil => exact members?_of_last (member?_writtenMember member (by decide) [])
  | cons next members ih =>
    rw [writtenMembers, members?_of_cons (member?_writtenMember member (by decide) _), ih next]
    rfl

/-- Members begin with the quotation mark of a key. -/
theorem exists_writtenMembers (member : String × Value) (members : List (String × Value)) :
    ∃ rest, writtenMembers (member :: members) = '\x22' :: rest := by
  have hkey : ∀ rest, ∃ more, writtenMember member rest = '\x22' :: more := by
    intro rest
    exact ⟨_, by rw [writtenMember, toList_string, List.cons_append]⟩
  cases members with
  | nil => exact hkey _
  | cons next members => exact hkey _

/-- **An object is read back**: whatever its keys and values are, the reader gives the members
that were written, in their order. Each reader on the way has a law of the same shape, what
is read and what is left behind it, and the object is put together from these. -/
theorem object?_object (members : List (String × Value)) :
    object? (object members) = some members := by
  rw [object?, object, String.toList_ofList]
  cases members with
  | nil => rfl
  | cons member members =>
    obtain ⟨rest, hrest⟩ := exists_writtenMembers member members
    have hopen : writtenMembers (member :: members) ≠ ['\x7d'] := by
      intro hclose
      rw [hrest] at hclose
      cases hclose
    exact (if_neg hopen).trans (members?_writtenMembers member members)

/-! ## No control character is written -/

/-- No character is a control character below U+0020. -/
def Uncontrolled (cs : List Char) : Prop :=
  ∀ c ∈ cs, 0x20 ≤ c.toNat

instance (cs : List Char) : Decidable (Uncontrolled cs) :=
  List.decidableBAll (fun c : Char => 0x20 ≤ c.toNat) cs

section

variable {cs more : List Char}

theorem Uncontrolled.append (h : Uncontrolled cs) (hmore : Uncontrolled more) :
    Uncontrolled (cs ++ more) :=
  List.forall_mem_append.2 ⟨h, hmore⟩

theorem Uncontrolled.cons {c : Char} (hc : 0x20 ≤ c.toNat) (h : Uncontrolled cs) :
    Uncontrolled (c :: cs) :=
  List.forall_mem_cons.2 ⟨hc, h⟩

theorem Uncontrolled.lineFeed_not_mem (h : Uncontrolled cs) : '\n' ∉ cs :=
  fun hmem => absurd (h '\n' hmem) (by decide)

end

theorem uncontrolled_digitChar : ∀ n < 16, 0x20 ≤ (Nat.digitChar n).toNat := by
  decide

theorem uncontrolled_named : ∀ escape ∈ named, Uncontrolled escape.2.toList := by
  decide

theorem uncontrolled_character (c : Char) : Uncontrolled (character c).toList := by
  unfold character
  cases hescape : named.lookup c with
  | some escape => exact uncontrolled_named (c, escape) (mem_of_lookup hescape)
  | none =>
    dsimp only
    split
    · have hhigh := uncontrolled_digitChar (c.toNat / 16) (by omega)
      have hlow := uncontrolled_digitChar (c.toNat % 16) (by omega)
      simp only [Json.byCode, String.toList_append, String.toList_ofList]
      refine .append (by decide) (.cons hhigh (.cons hlow ?_))
      exact List.forall_mem_nil _
    · rename_i hle
      rw [String.toList_singleton]
      exact .cons (Nat.not_lt.1 hle) (List.forall_mem_nil _)

theorem uncontrolled_string (text : String) : Uncontrolled (string text).toList := by
  rw [toList_string]
  refine .cons (by decide) (.append ?_ (.cons (by decide) (List.forall_mem_nil _)))
  intro d hd
  obtain ⟨c, -, hd⟩ := List.mem_flatMap.1 hd
  exact uncontrolled_character c d hd

theorem uncontrolled_written (value : Value) : Uncontrolled value.written := by
  cases value with
  | string text => exact uncontrolled_string text
  | number n =>
    intro d hd
    have hdigit := Nat.isDigit_of_mem_toDigits (by decide) (by decide) hd
    have hlow := (Char.isDigit_iff_toNat.1 hdigit).1
    exact Nat.le_trans (by decide) hlow

theorem uncontrolled_writtenMember (member : String × Value) (h : Uncontrolled more) :
    Uncontrolled (writtenMember member more) :=
  (uncontrolled_string member.1).append
    (.cons (by decide) ((uncontrolled_written member.2).append h))

/-- No control character stands in what is written. -/
theorem uncontrolled_object (members : List (String × Value)) :
    Uncontrolled (object members).toList := by
  rw [object, String.toList_ofList]
  refine .cons (by decide) ?_
  have hbrace : Uncontrolled ['\x7d'] := .cons (by decide) (List.forall_mem_nil _)
  fun_induction writtenMembers members with
  | case1 => exact hbrace
  | case2 member => exact uncontrolled_writtenMember member hbrace
  | case3 member next members ih => exact uncontrolled_writtenMember member (.cons (by decide) ih)

end Json

end ByteLexer
