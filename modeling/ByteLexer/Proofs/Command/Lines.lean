import ByteLexer.Proofs.Command.Accounting
import ByteLexer.Proofs.Scan.Layout
import ByteLexer.Proofs.Scan.Requests
import ByteLexer.Proofs.Text.Json
import ByteLexer.Text.LineMap
import Mathlib.Data.List.Nodup

/-!
# Lines can be told apart

What is written of some tokens is one line after the other, and no lengths stand in
between. It can be told which tokens they were all the same, from either form.

As JSON, a line holds no line feed but the one that ends it, and the object on it gives
the token back (`emit_json_read_back`). Plain lines escape nothing. The text of a string
may hold line feeds, apostrophes and whole lines of other tokens, so a line feed does
not tell where such a line ends. What tells it is the kind, which stands in front of the
text. No other text holds an apostrophe, and that of a string ends with its second
quotation mark (`Closed`), whatever else it holds. This is known of tokens that a
scanner hands out, and of them only, so it is for these that plain lines can be told
apart (`text_lines_inj`).

In both forms, a line is told from whatever stands behind it, and from there on the next
one is (`flatMap_inj`).

**What it does not establish.** The reader of the objects is `Json.object?`, made for what is
written here. What it gives back are characters: bytes of the source that are no characters
are not written, and do not come back. Plain lines have no reader. It is only known that two
lists of tokens do not have the same lines, and for tokens at large even that fails, as the
last example shows.
-/

namespace ByteLexer

/-! ## One thing after the other -/

/-- If each can be told from whatever stands behind it, all can be told that stand one after the
other. Neither list can be the front of the other, as what is written of each is not empty. -/
theorem flatMap_inj {α β : Type} {written : α → List β} (hne : ∀ a, written a ≠ [])
    {first second : List α}
    (hwritten : ∀ a ∈ first, ∀ b ∈ second, ∀ rest behind,
      written a ++ rest = written b ++ behind → a = b ∧ rest = behind)
    (h : first.flatMap written = second.flatMap written) : first = second := by
  induction first generalizing second with
  | nil =>
    cases second with
    | nil => rfl
    | cons b second => exact absurd (List.append_eq_nil_iff.1 h.symm).1 (hne b)
  | cons a first ih =>
    cases second with
    | nil => exact absurd (List.append_eq_nil_iff.1 h).1 (hne a)
    | cons b second =>
      obtain ⟨rfl, hrest⟩ := hwritten a List.mem_cons_self b List.mem_cons_self _ _ h
      rw [ih (fun a ha b hb => hwritten a (List.mem_cons_of_mem _ ha) b (List.mem_cons_of_mem _ hb))
        hrest]

theorem TokenFormat.toList_line_ne_nil (format : TokenFormat) (token : Token) :
    (format.line token).toList ≠ [] := by
  intro hline
  cases format
  all_goals
    rw [line, String.toList_append] at hline
    exact absurd (List.append_eq_nil_iff.1 hline).2 (List.cons_ne_nil _ _)

/-- Lines can be told apart that can be told from whatever stands behind them. -/
theorem TokenFormat.lines_inj (format : TokenFormat) {tokens others : List Token}
    (hline : ∀ token ∈ tokens, ∀ other ∈ others, ∀ rest behind,
      (format.line token).toList ++ rest = (format.line other).toList ++ behind →
        token = other ∧ rest = behind)
    (h : String.join (tokens.map format.line) = String.join (others.map format.line)) :
    tokens = others := by
  rw [← String.toList_inj, String.toList_join, String.toList_join, List.flatMap_map,
    List.flatMap_map] at h
  exact flatMap_inj format.toList_line_ne_nil hline h

/-! ## Names -/

/-- No two kinds are printed under one name. -/
theorem Kind.name_injective : Function.Injective Kind.name := by
  have hnodup : (all.map name).Nodup := by decide
  intro first second h
  exact List.inj_on_of_nodup_map hnodup (mem_all first) (mem_all second) h

theorem Kind.comma_not_mem_name (kind : Kind) : ',' ∉ kind.name.toList := by
  have hall : ∀ kind ∈ all, ',' ∉ kind.name.toList := by decide
  exact hall kind (mem_all kind)

/-! ## Lines of JSON -/

/-- The members of the object that a token is written as. -/
def Token.members (token : Token) : List (String × Json.Value) :=
  [("kind", .string token.kind.name), ("text", .string token.text),
   ("offset", .number token.offset)]

theorem Token.json_eq (token : Token) : token.json = Json.object token.members := by
  have hkind : (Json.string "kind").toList = "\"kind\"".toList := by decide
  have htext : (Json.string "text").toList = "\"text\"".toList := by decide
  have hoffset : (Json.string "offset").toList = "\"offset\"".toList := by decide
  apply String.toList_inj.1
  rw [Json.object, String.toList_ofList, members]
  simp only [Json.writtenMembers, Json.writtenMember, hkind, htext, hoffset, Json.Value.written]
  simp only [json, String.toList_append, Nat.toString_eq_ofList_toDigits, String.toList_ofList,
    List.append_assoc]
  rfl

theorem Token.members_injective : Function.Injective Token.members := by
  intro first second h
  simp only [members, List.cons.injEq, Prod.mk.injEq, Json.Value.string.injEq,
    Json.Value.number.injEq, and_true, true_and] at h
  obtain ⟨hkind, htext, hoffset⟩ := h
  rw [Token.mk.injEq]
  exact ⟨Kind.name_injective hkind, htext, hoffset⟩

/-- A line holds a token: it is an object with the members of the token, and no line feed
stands in it. -/
structure Token.HeldBy (token : Token) (line : String) : Prop where
  framed : LineMap.lineFeed ∉ Utf8.bytes line
  object : Json.object? line = some token.members

theorem Token.lineFeed_not_mem_json (token : Token) : '\n' ∉ token.json.toList := by
  rw [json_eq]
  exact (Json.uncontrolled_object token.members).lineFeed_not_mem

/-- Every token is held by its line. -/
theorem Token.heldBy_json (token : Token) : token.HeldBy token.json where
  framed := by
    rw [Utf8.bytes_eq_encodeAll, Utf8.mem_encodeAll_iff (c := '\n') (by decide) (by decide)]
    exact token.lineFeed_not_mem_json
  object := by
    rw [json_eq, Json.object?_object]

/-- Two tokens are not held by one line. -/
theorem Token.HeldBy.eq {first second : Token} {line : String} (hfirst : first.HeldBy line)
    (hsecond : second.HeldBy line) : first = second :=
  members_injective (Option.some.inj (hfirst.object.symm.trans hsecond.object))

theorem json_line_append_inj {first second : Token} {rest behind : List Char}
    (h : (TokenFormat.json.line first).toList ++ rest =
      (TokenFormat.json.line second).toList ++ behind) : first = second ∧ rest = behind := by
  simp only [TokenFormat.line, String.toList_append, List.append_assoc] at h
  obtain ⟨hjson, hrest⟩ :=
    append_cons_inj first.lineFeed_not_mem_json second.lineFeed_not_mem_json h
  have hline : second.HeldBy first.json := by
    rw [String.toList_inj.1 hjson]
    exact second.heldBy_json
  exact ⟨first.heldBy_json.eq hline, hrest⟩

/-- What an emission writes if it writes JSON: `scanner` and `sink` are what it was given. -/
structure WritesObjects (scanner : Scanner) (sink : Sink) (emission : Emission) : Prop where
  /-- A line for each token that it takes, which gives back that token, -/
  lines : ∃ lines : List String,
    emission.sink.output = sink.output ++ String.join (lines.map (· ++ "\n")) ∧
    lines.length = emission.summary.tokens ∧
    List.Forall₂ Token.HeldBy (scanner.upcoming emission.summary.tokens) lines
  /-- so an emission that writes the same takes the same tokens. -/
  determined : ∀ (options : Options) (other : Scanner) (onto : Sink),
    options.format = .json → options.quiet = false → onto.output = sink.output →
    (emit options other onto).sink.output = emission.sink.output →
    other.upcoming (emit options other onto).summary.tokens =
      scanner.upcoming emission.summary.tokens

/-- What is written as JSON, by the tokens that are taken. -/
theorem output_emit_json {options : Options} (hformat : options.format = .json)
    (hquiet : options.quiet = false) (scanner : Scanner) (sink : Sink) :
    (emit options scanner sink).sink.output = sink.output ++ String.join
      ((scanner.upcoming (emit options scanner sink).summary.tokens).map
        TokenFormat.json.line) := by
  rw [output_emit, Scanner.map_token_made, tokens_emit, Options.lines, hquiet, hformat]
  rfl

/-- **What is written as JSON is read back**, line by line: behind what the sink held before there
is a line for each token, without a line feed in it, and the object on the line has the three
members of its token. So the tokens can be read off the output, by whichever scanner and
whatever options it was written, as long as they write JSON. No scanner need be reached. -/
theorem emit_json_read_back {options : Options} (hformat : options.format = .json)
    (hquiet : options.quiet = false) (scanner : Scanner) (sink : Sink) :
    WritesObjects scanner sink (emit options scanner sink) where
  lines := by
    refine ⟨(scanner.upcoming (emit options scanner sink).summary.tokens).map Token.json, ?_, ?_,
      ?_⟩
    · rw [output_emit_json hformat hquiet, List.map_map]
      rfl
    · rw [List.length_map, Scanner.upcoming, List.length_map, List.length_range]
    · exact List.forall₂_map_right_iff.2 (List.forall₂_same.2 fun token _ => token.heldBy_json)
  determined := by
    intro others other onto hother hloud honto h
    rw [output_emit_json hother hloud, output_emit_json hformat hquiet, honto,
      String.append_right_inj] at h
    exact TokenFormat.json.lines_inj (fun _ _ _ _ _ _ => json_line_append_inj) h

/-- A string of a line feed, a backslash and an `n`, a control character and one that is
not ASCII, and a plus sign. -/
def awkwardString : ByteArray :=
  ⟨#[0x22, 0x0A, 0x5C, 0x6E, 0x01, 0xC3, 0xA9, 0x22, 0x2B]⟩

/-- The line feed that was read and the one that is spelled out are written apart. -/
theorem emit_json_read_back_awkward :
    Options.format ⟨none, .skip, .json, false, 0⟩ = .json ∧
      Options.quiet ⟨none, .skip, .json, false, 0⟩ = false ∧
      WritesObjects (Scanner.start awkwardString) Sink.empty
        (emit ⟨none, .skip, .json, false, 0⟩ (Scanner.start awkwardString) Sink.empty) ∧
      (emit ⟨none, .skip, .json, false, 0⟩ (Scanner.start awkwardString) Sink.empty).sink.output =
        "\x7b\"kind\":\"QUOTE\",\"text\":\"\\\"\\n\\\\n\\u0001é\\\"\",\"offset\":0\x7d\n" ++
        "\x7b\"kind\":\"PLUS\",\"text\":\"+\",\"offset\":8\x7d\n" ++
        "\x7b\"kind\":\"EOF\",\"text\":\"\",\"offset\":9\x7d\n" :=
  ⟨rfl, rfl, emit_json_read_back rfl rfl _ _, by decide +kernel⟩

/-! ## Plain lines -/

/-- The text of a kind cannot run on: that of a string ends with its second quotation
mark, and no other holds an apostrophe. -/
def Kind.Closed (kind : Kind) (text : List Char) : Prop :=
  if kind = .quote then ∃ body, '\x22' ∉ body ∧ text = '\x22' :: (body ++ ['\x22'])
  else '\x27' ∉ text

/-- A text that cannot run on is told from what stands behind the apostrophe that ends it. -/
theorem Kind.Closed.append_inj {kind : Kind} {text other rest behind : List Char}
    (htext : kind.Closed text) (hother : kind.Closed other)
    (h : text ++ '\x27' :: rest = other ++ '\x27' :: behind) : text = other ∧ rest = behind := by
  by_cases hkind : kind = .quote
  · rw [Closed, if_pos hkind] at htext hother
    obtain ⟨body, hbody, rfl⟩ := htext
    obtain ⟨more, hmore, rfl⟩ := hother
    simp only [List.cons_append, List.append_assoc, List.nil_append, List.cons.injEq,
      true_and] at h
    obtain ⟨rfl, hrest⟩ := append_cons_inj hbody hmore h
    exact ⟨rfl, (List.cons.inj hrest).2⟩
  · rw [Closed, if_neg hkind] at htext hother
    exact append_cons_inj htext hother h

/-- What is spelled cannot run on. -/
theorem Spelling.closed {kind : Kind} {word : List UInt8} (h : Spelling kind word) :
    kind.Closed (Utf8.text word).toList := by
  -- the apostrophe is ASCII, so it is a character of the text only where its byte stands
  have hapostrophe : (0x27 : UInt8) ∉ word → '\x27' ∉ (Utf8.text word).toList := by
    intro hbyte hmem
    obtain ⟨cs, hcs⟩ := Utf8.isValidUTF8_iff.1 (Utf8.isValidUTF8_iff_undecoded.2 h.valid)
    rw [hcs, Utf8.text_encodeAll, String.toList_ofList] at hmem
    exact hbyte (hcs ▸ (Utf8.mem_encodeAll_iff (by decide) (by decide)).2 hmem)
  have hpart : Kind.joins .identifier kind = true → (0x27 : UInt8) ∉ word :=
    fun hjoin hmem => absurd (h.all_continues hjoin _ hmem) (by decide)
  cases h with
  | identifier => exact hapostrophe (hpart rfl)
  | number => exact hapostrophe (hpart rfl)
  | @operator kind c byte hkind hbyte =>
    have hquote : kind ≠ .quote := by
      rintro rfl
      cases hkind
    rw [Kind.Closed, if_neg hquote]
    refine hapostrophe fun hmem => ?_
    rw [List.mem_singleton] at hmem
    have hfound := Kind.ofByte?_eq_some_iff.2 ⟨c, hkind, hbyte⟩
    have hnone : Kind.ofByte? 0x27 = none := by decide +kernel
    cases (hmem ▸ hnone).symm.trans hfound
  | @quote body hvalid hbody =>
    obtain ⟨cs, rfl⟩ := Utf8.isValidUTF8_iff.1 hvalid
    have hmark : '\x22' ∉ cs := mt (Utf8.mem_encodeAll_iff (by decide) (by decide)).2 hbody
    have hword : CharClass.quoteByte :: (Utf8.encodeAll cs ++ [CharClass.quoteByte]) =
        Utf8.encodeAll ('\x22' :: (cs ++ ['\x22'])) := by
      rw [Utf8.encodeAll_cons, Utf8.encodeAll_concat]
      rfl
    rw [hword, Utf8.text_encodeAll, String.toList_ofList]
    exact ⟨cs, hmark, rfl⟩

/-- Some scanner hands the token out, over some source and after some requests. -/
def Token.HandedOut (token : Token) : Prop :=
  ∃ source scanner request, Scanner.Reachable source scanner ∧
    (scanner.answer request).1 = some token

/-- The text of a token that is handed out cannot run on. -/
theorem Token.HandedOut.closed {token : Token} (h : token.HandedOut) :
    token.kind.Closed token.text.toList := by
  obtain ⟨source, scanner, request, hreachable, htoken⟩ := h
  obtain ⟨-, -, hnone⟩ | ⟨-, hnext, -⟩ := scanner.answer_cases request
  · rw [hnone] at htoken
    cases htoken
  rw [hnext, Option.some.injEq] at htoken
  subst htoken
  have hread := hreachable.readAhead
  by_cases hrest : scanner.rest.dropWhile ByteClass.isSpace = []
  · rw [Scanner.next_eq_of_nil hread hrest]
    exact List.not_mem_nil
  · obtain ⟨kind, word, hword, -, -, htoken, -⟩ | ⟨_, -, -, htoken, -⟩ :=
      Scanner.next_spelling hread hrest
    · rw [htoken]
      exact hword.closed
    · rw [htoken]
      exact List.not_mem_nil

/-- A plain line, in front of what stands behind it. -/
theorem toList_text_line_append (token : Token) (rest : List Char) :
    (TokenFormat.text.line token).toList ++ rest =
      "Token\x7b".toList ++ (token.kind.name.toList ++ ',' :: ' ' :: '\x27' ::
        (token.text.toList ++ '\x27' :: ',' :: ' ' ::
          (Nat.toDigits 10 token.offset ++ '\x7d' :: '\n' :: rest))) := by
  simp only [TokenFormat.line, Token.display, String.toList_append, List.append_assoc,
    Nat.toString_eq_ofList_toDigits, String.toList_ofList]
  rfl

theorem text_line_append_inj {first second : Token} (hfirst : first.HandedOut)
    (hsecond : second.HandedOut) {rest behind : List Char}
    (h : (TokenFormat.text.line first).toList ++ rest =
      (TokenFormat.text.line second).toList ++ behind) : first = second ∧ rest = behind := by
  have htext := hfirst.closed
  have hother := hsecond.closed
  rw [toList_text_line_append, toList_text_line_append, List.append_cancel_left_eq] at h
  obtain ⟨hname, h⟩ :=
    append_cons_inj first.kind.comma_not_mem_name second.kind.comma_not_mem_name h
  have hkind : first.kind = second.kind := Kind.name_injective (String.toList_inj.1 hname)
  simp only [List.cons.injEq, true_and] at h
  -- both texts are of one kind, so one condition says where both end
  rw [← hkind] at hother
  obtain ⟨hword, h⟩ := htext.append_inj hother h
  simp only [List.cons.injEq, true_and] at h
  obtain ⟨hoffset, h⟩ := toDigits_append_cons_inj (by decide) h
  refine ⟨?_, (List.cons.inj h).2⟩
  rw [Token.mk.injEq]
  exact ⟨hkind, String.toList_inj.1 hword, hoffset⟩

/-- **Plain lines can be told apart**, whatever the texts on them hold: two lists of tokens that
scanners hand out, over any sources and after any requests, are equal if what is written of
them is. The kind is read first, and it says which mark ends the text (`Kind.Closed`), so the
offset is found behind a text with line feeds and apostrophes too. -/
theorem text_lines_inj {tokens others : List Token} (htokens : ∀ token ∈ tokens, token.HandedOut)
    (hothers : ∀ token ∈ others, token.HandedOut)
    (h : String.join (tokens.map TokenFormat.text.line) =
      String.join (others.map TokenFormat.text.line)) : tokens = others := by
  refine TokenFormat.text.lines_inj ?_ h
  intro token htoken other hother _ _
  exact text_line_append_inj (htokens token htoken) (hothers other hother)

/-- A string that ends its own line, so it looks, and goes on with another. -/
def lineWithin : String :=
  "\"', 0\x7d\nToken\x7bPLUS, '+', 7\x7d\n\""

/-- The lines of this string and of the one that is handed out of a longer source. -/
theorem text_lines_inj_within :
    (∀ token ∈ [(Scanner.start lineWithin.toByteArray).next.1], token.HandedOut) ∧
      (∀ token ∈ [⟨.quote, lineWithin, 0⟩], Token.HandedOut token) ∧
      String.join ([(Scanner.start lineWithin.toByteArray).next.1].map TokenFormat.text.line) =
        String.join ([⟨.quote, lineWithin, 0⟩].map TokenFormat.text.line) ∧
      [(Scanner.start lineWithin.toByteArray).next.1] = [⟨.quote, lineWithin, 0⟩] := by
  have hfirst : ∀ token ∈ [(Scanner.start lineWithin.toByteArray).next.1], token.HandedOut :=
    List.forall_mem_singleton.2 ⟨_, _, .next, .start _, rfl⟩
  have hsecond : ∀ token ∈ [⟨.quote, lineWithin, 0⟩], Token.HandedOut token :=
    List.forall_mem_singleton.2
      ⟨(lineWithin ++ "+").toByteArray, _, .yield, .start _, by decide +kernel⟩
  have hlines :
      String.join ([(Scanner.start lineWithin.toByteArray).next.1].map TokenFormat.text.line) =
        String.join ([⟨.quote, lineWithin, 0⟩].map TokenFormat.text.line) := by
    decide +kernel
  exact ⟨hfirst, hsecond, hlines, text_lines_inj hfirst hsecond hlines⟩

/-- Texts of other tokens could run on: one line can look like two. -/
example : TokenFormat.text.line ⟨.plus, "', 0\x7d\nToken\x7bPLUS, '+", 7⟩ =
    String.join ([⟨.plus, "", 0⟩, ⟨.plus, "+", 7⟩].map TokenFormat.text.line) := by
  decide

end ByteLexer
