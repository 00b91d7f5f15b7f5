import ByteLexer.Diagnostic.Template
import ByteLexer.Proofs.Text.Decimal

/-!
# Filling a template is one substitution

The arguments of a template are filled in one after the other, each into the text as it
stands by then. So a place could be found in what an earlier argument has brought in,
or where that meets the text around it. Where no argument holds an opening brace and
each one of the template is closed before the next is opened, this cannot be, and
filling is the same as reading the template once and writing, for each group, what it
stands for (`fill_eq_substitute`).

What the rounds keep is that the text is the substitution of the arguments so far.
Another round makes it the substitution of one more (`replace_substitute`). A place
begins with an opening brace, so it does not begin in an argument, and from an opening
brace of the template to the one that closes it nothing has been filled in.

**What it takes as given.** Two conditions, one on the braces of the template and one on the
arguments. They are sufficient and no more: filling may be one substitution where they fail.
Without the first it need not be, as the last example shows, and without the second a later
round can fill in a place that an argument has brought in.

**What it does not establish.** Whether the arguments are as many as the places is not asked.
A place without an argument stays as it is, and an argument without a place is not seen.
-/

namespace ByteLexer

namespace Template

/-! ## One substitution -/

/-- The next brace behind an opening one closes it. -/
def WellBraced : List Char → Prop
  | [] => True
  | c :: rest =>
    (c = '\x7b' → rest.find? (fun d => d = '\x7b' ∨ d = '\x7d') = some '\x7d') ∧ WellBraced rest

instance decidableWellBraced : (text : List Char) → Decidable (WellBraced text)
  | [] => inferInstanceAs (Decidable True)
  | _ :: rest =>
    have := decidableWellBraced rest
    inferInstanceAs (Decidable (_ ∧ _))

/-- What a group stands for: the argument whose index it holds, or else itself. -/
def standsFor (arguments : List (List Char)) (body : List Char) : List Char :=
  ((decimal? body).bind (arguments[·]?)).getD ('\x7b' :: (body ++ ['\x7d']))

/-- The text with what each group of it stands for, and all else as it is. It is read once from
left to right, and what is written for a group is not read again. A group runs from an opening
brace to the first closing one behind it; an opening brace that nothing closes is no group. -/
def substitute (arguments : List (List Char)) (text : List Char) : List Char :=
  match text with
  | [] => []
  | c :: rest =>
    if c = '\x7b' ∧ '\x7d' ∈ rest then
      standsFor arguments (rest.takeWhile (· != '\x7d')) ++
        substitute arguments (rest.dropWhile (· != '\x7d')).tail
    else c :: substitute arguments rest
termination_by text.length
decreasing_by
  all_goals
    have hdrop := (List.dropWhile_suffix (l := rest) (· != '\x7d')).length_le
    simp only [List.length_tail, List.length_cons]
    omega

/-! ## Characters and groups -/

/-- The text is made of characters that are no opening braces, and of groups. -/
inductive Grouped : List Char → Prop
  | nil : Grouped []
  | plain {c : Char} {rest : List Char} (hc : c ≠ '\x7b') (hrest : Grouped rest) :
      Grouped (c :: rest)
  | group {body rest : List Char} (hopen : '\x7b' ∉ body) (hclose : '\x7d' ∉ body)
      (hrest : Grouped rest) : Grouped ('\x7b' :: (body ++ '\x7d' :: rest))

theorem WellBraced.of_append {front text : List Char} (h : WellBraced (front ++ text)) :
    WellBraced text := by
  induction front with
  | nil => exact h
  | cons c front ih => exact ih h.2

theorem WellBraced.grouped {text : List Char} (h : WellBraced text) : Grouped text := by
  -- on the length, as a group takes more than one character
  induction hlength : text.length using Nat.strongRecOn generalizing text with
  | ind n ih =>
    subst hlength
    cases text with
    | nil => exact .nil
    | cons c rest =>
      obtain ⟨hbrace, hrest⟩ := h
      by_cases hc : c = '\x7b'
      · obtain ⟨-, body, behind, rfl, hbody⟩ := List.find?_eq_some_iff_append.1 (hbrace hc)
        have hplain : ∀ d ∈ body, d ≠ '\x7b' ∧ d ≠ '\x7d' := by
          intro d hd
          simpa [not_or] using hbody d hd
        subst hc
        refine .group (fun hmem => (hplain _ hmem).1 rfl) (fun hmem => (hplain _ hmem).2 rfl) ?_
        refine ih behind.length ?_ (WellBraced.of_append hrest).2 rfl
        simp only [List.length_cons, List.length_append]
        omega
      · exact .plain hc (ih rest.length (Nat.lt_succ_self _) hrest rfl)

section

variable {arguments : List (List Char)} {c : Char} {body rest : List Char}

theorem standsFor_of_getElem? {index : Nat} {argument : List Char}
    (hindex : decimal? body = some index) (hget : arguments[index]? = some argument) :
    standsFor arguments body = argument := by
  rw [standsFor, hindex, Option.bind_some, hget, Option.getD_some]

theorem standsFor_of_le (h : ∀ index, decimal? body = some index → arguments.length ≤ index) :
    standsFor arguments body = '\x7b' :: (body ++ ['\x7d']) := by
  cases hindex : decimal? body with
  | none => rw [standsFor, hindex, Option.bind_none, Option.getD_none]
  | some index =>
    rw [standsFor, hindex, Option.bind_some, List.getElem?_eq_none (h index hindex),
      Option.getD_none]

theorem substitute_cons (hc : c ≠ '\x7b') :
    substitute arguments (c :: rest) = c :: substitute arguments rest := by
  rw [substitute, if_neg fun h => hc h.1]

theorem substitute_group (hclose : '\x7d' ∉ body) :
    substitute arguments ('\x7b' :: (body ++ '\x7d' :: rest)) =
      standsFor arguments body ++ substitute arguments rest := by
  have hmem : '\x7d' ∈ body ++ '\x7d' :: rest := List.mem_append_right _ List.mem_cons_self
  have hbody : ∀ d ∈ body, (d != '\x7d') = true := by
    intro d hd
    exact bne_iff_ne.2 fun heq => hclose (heq ▸ hd)
  rw [substitute, if_pos ⟨rfl, hmem⟩, List.takeWhile_append_of_pos hbody,
    List.dropWhile_append_of_pos hbody, List.takeWhile_cons_of_neg (by decide),
    List.dropWhile_cons_of_neg (by decide), List.append_nil, List.tail_cons]

/-- Where there is nothing to fill in, nothing changes. -/
theorem substitute_nil (h : Grouped rest) : substitute [] rest = rest := by
  induction h with
  | nil => rw [substitute]
  | plain hc _ ih => rw [substitute_cons hc, ih]
  | @group body rest _ hclose _ ih =>
    have hnone : standsFor [] body = '\x7b' :: (body ++ ['\x7d']) :=
      standsFor_of_le fun index _ => Nat.zero_le index
    rw [substitute_group hclose, ih, hnone, List.cons_append, List.append_assoc,
      List.singleton_append]

end

/-! ## One round -/

section

variable (index : Nat) (argument : List Char)

/-- Where no opening brace is, no place begins. -/
theorem replace_append {front : List Char} (h : '\x7b' ∉ front) (rest : List Char) :
    replace (place index) argument (front ++ rest) =
      front ++ replace (place index) argument rest := by
  induction front with
  | nil => rfl
  | cons c front ih =>
    have hc : '\x7b' ≠ c := fun heq => h (heq ▸ List.mem_cons_self)
    have hno : ¬(place index).isPrefixOf (c :: (front ++ rest)) = true := by
      rw [List.isPrefixOf_iff_prefix, place, List.cons_append, List.cons_prefix_cons]
      exact fun hprefix => hc hprefix.1
    rw [List.cons_append, replace, replaceFrom, if_neg hno]
    exact congrArg _ (ih (mt (List.mem_cons_of_mem c) h))

theorem replaceFrom_append {pattern : List Char} (front rest : List Char) :
    replaceFrom pattern argument front.length (front ++ rest) =
      replaceFrom pattern argument 0 rest := by
  induction front with
  | nil => rfl
  | cons c front ih => exact ih

/-- A group is replaced if its body is the numeral of the index, and only then. -/
theorem replace_group {body : List Char} (hopen : '\x7b' ∉ body) (hclose : '\x7d' ∉ body)
    (rest : List Char) :
    replace (place index) argument ('\x7b' :: (body ++ '\x7d' :: rest)) =
      (if decimal? body = some index then argument else '\x7b' :: (body ++ ['\x7d'])) ++
        replace (place index) argument rest := by
  -- a numeral holds no closing brace, so the place and the group end at the same one
  have hplace : (place index).isPrefixOf ('\x7b' :: (body ++ '\x7d' :: rest)) = true ↔
      decimal? body = some index := by
    rw [List.isPrefixOf_iff_prefix, decimal?_eq_some_iff]
    constructor
    · rintro ⟨behind, hbehind⟩
      simp only [place, List.cons_append, List.append_assoc, List.nil_append, List.cons.injEq,
        true_and] at hbehind
      exact (append_cons_inj (not_mem_toDigits index (by decide)) hclose hbehind).1.symm
    · rintro rfl
      refine ⟨rest, ?_⟩
      simp only [place, List.cons_append, List.append_assoc, List.nil_append]
  by_cases hindex : decimal? body = some index
  · have hskip : (place index).length - 1 = (body ++ ['\x7d']).length := by
      rw [decimal?_eq_some_iff.1 hindex]
      rfl
    have hsplit : body ++ '\x7d' :: rest = (body ++ ['\x7d']) ++ rest := by
      rw [List.append_assoc, List.singleton_append]
    rw [replace, replaceFrom, if_pos (hplace.2 hindex), if_pos hindex, hskip, hsplit,
      replaceFrom_append]
    rfl
  · have hbody : '\x7b' ∉ body ++ ['\x7d'] := by
      rw [List.mem_append, List.mem_singleton]
      exact not_or.2 ⟨hopen, by decide⟩
    have hrest : replace (place index) argument (body ++ '\x7d' :: rest) =
        body ++ '\x7d' :: replace (place index) argument rest := by
      have hskip := replace_append index argument hbody rest
      rwa [List.append_assoc, List.append_assoc] at hskip
    rw [replace, replaceFrom, if_neg (mt hplace.1 hindex), if_neg hindex, List.cons_append,
      List.append_assoc]
    exact congrArg _ hrest

/-- A round fills in a group that stands for the argument of this round, and leaves alone
what an earlier one has filled in. -/
theorem replace_standsFor {body : List Char} (hopen : '\x7b' ∉ body) (hclose : '\x7d' ∉ body)
    {used : List (List Char)} (hused : ∀ argument ∈ used, '\x7b' ∉ argument) (rest : List Char) :
    replace (place used.length) argument (standsFor used body ++ rest) =
      standsFor (used ++ [argument]) body ++ replace (place used.length) argument rest := by
  by_cases hfilled : ∃ index earlier, decimal? body = some index ∧ used[index]? = some earlier
  · -- what stands here is an argument already, in which no place begins
    obtain ⟨index, earlier, hindex, hget⟩ := hfilled
    have hlt : index < used.length := (List.getElem?_eq_some_iff.1 hget).1
    rw [standsFor_of_getElem? hindex hget,
      standsFor_of_getElem? hindex ((List.getElem?_append_left hlt).trans hget)]
    exact replace_append _ argument (hused earlier (List.mem_of_getElem? hget)) rest
  · -- the group is still there, so if it is the place of an argument, of this one or a later one
    have hle : ∀ index, decimal? body = some index → used.length ≤ index := by
      intro index hindex
      by_contra hlt
      exact hfilled ⟨index, _, hindex, List.getElem?_eq_getElem (Nat.not_le.1 hlt)⟩
    rw [standsFor_of_le hle, List.cons_append, List.append_assoc, List.singleton_append,
      replace_group _ _ hopen hclose]
    congr 1
    by_cases hround : decimal? body = some used.length
    · rw [if_pos hround, standsFor_of_getElem? hround List.getElem?_concat_length]
    · have hbeyond : ∀ index, decimal? body = some index → (used ++ [argument]).length ≤ index := by
        intro index hindex
        rw [List.length_append, List.length_singleton]
        exact Nat.lt_of_le_of_ne (hle index hindex) fun heq => hround (heq ▸ hindex)
      rw [if_neg hround, standsFor_of_le hbeyond]

/-- **A round fills in one more argument.** The induction is on the groups of the text. Before a
group nothing changes. A group with the index of this round is replaced, one with a smaller
index has become an argument already, in which no place begins, and any other stays. -/
theorem replace_substitute {text : List Char} (htext : Grouped text) {used : List (List Char)}
    (hused : ∀ argument ∈ used, '\x7b' ∉ argument) :
    replace (place used.length) argument (substitute used text) =
      substitute (used ++ [argument]) text := by
  induction htext with
  | nil =>
    rw [substitute, substitute]
    rfl
  | @plain c rest hc _ ih =>
    rw [substitute_cons hc, substitute_cons hc, ← ih]
    exact replace_append _ argument (mt List.mem_singleton.1 hc.symm) (substitute used rest)
  | group hopen hclose _ ih =>
    rw [substitute_group hclose, substitute_group hclose, ← ih]
    exact replace_standsFor argument hopen hclose hused _

/-- The rounds that are left fill in the arguments that are left. -/
theorem fillFrom_substitute {text : List Char} (htext : Grouped text)
    (used : List (List Char)) {arguments : List (List Char)}
    (h : ∀ argument ∈ used ++ arguments, '\x7b' ∉ argument) :
    fillFrom used.length (substitute used text) arguments =
      substitute (used ++ arguments) text := by
  induction arguments generalizing used with
  | nil => rw [fillFrom, List.append_nil]
  | cons argument arguments ih =>
    have hused : ∀ argument ∈ used, '\x7b' ∉ argument :=
      fun argument hmem => h argument (List.mem_append_left _ hmem)
    have hsplit : used ++ argument :: arguments = used ++ [argument] ++ arguments := by
      rw [List.append_assoc, List.singleton_append]
    rw [hsplit] at h ⊢
    rw [fillFrom, replace_substitute argument htext hused, ← ih _ h, List.length_append,
      List.length_singleton]

end

/-- **Filling is one substitution**, where braces are closed before others are opened and no
argument opens one. The order of the rounds is then no part of the result: a place is filled
in by the argument with its index, as often as it occurs, and a group that holds no numeral of
an argument, such as one with a zero in front, is left alone. -/
theorem fill_eq_substitute {template : String} {arguments : List String}
    (htemplate : WellBraced template.toList)
    (harguments : ∀ argument ∈ arguments, '\x7b' ∉ argument.toList) :
    fill template arguments =
      String.ofList (substitute (arguments.map String.toList) template.toList) := by
  have hrounds := fillFrom_substitute htemplate.grouped [] (List.forall_mem_map.2 harguments)
  rw [substitute_nil htemplate.grouped] at hrounds
  exact congrArg String.ofList hrounds

/-- A template with a place twice, one without an argument, groups of other kinds, and a
closing brace by itself. -/
def motley : String :=
  "\x7b1\x7d: \x7b0\x7d\x7b0\x7d \x7b01\x7d \x7b9\x7d \x7bx\x7d \x7b\x7d \x7d"

/-- Of three arguments, one holds a closing brace, one is empty, and one has no place. -/
theorem fill_eq_substitute_motley :
    WellBraced motley.toList ∧
      (∀ argument ∈ ["a\x7d", "", "unused"], '\x7b' ∉ argument.toList) ∧
      fill motley ["a\x7d", "", "unused"] =
        String.ofList (substitute (["a\x7d", "", "unused"].map String.toList) motley.toList) ∧
      fill motley ["a\x7d", "", "unused"] =
        ": a\x7da\x7d \x7b01\x7d \x7b9\x7d \x7bx\x7d \x7b\x7d \x7d" := by
  have htemplate : WellBraced motley.toList := by decide
  have harguments : ∀ argument ∈ ["a\x7d", "", "unused"], '\x7b' ∉ argument.toList := by decide
  have hfill := fill_eq_substitute htemplate harguments
  have hvalue : fill motley ["a\x7d", "", "unused"] =
      ": a\x7da\x7d \x7b01\x7d \x7b9\x7d \x7bx\x7d \x7b\x7d \x7d" := by
    decide +kernel
  exact ⟨htemplate, harguments, hfill, hvalue⟩

/-- Where an opening brace is not closed at once, an argument can make a place. -/
example : fill "\x7b\x7b0\x7d\x7d" ["1", "argument"] = "argument" := by decide

end Template

end ByteLexer
