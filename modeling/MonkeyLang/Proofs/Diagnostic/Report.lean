import MonkeyLang.Proofs.Diagnostic.Width
import MonkeyLang.Proofs.Parser.Isolation
import MonkeyLang.Proofs.Parser.SourceOrder
import MonkeyLang.Proofs.Text.Line
import MonkeyLang.Proofs.Text.Numeral

/-!
# What a report shows

The report of a diagnostic on a program, if there is one, has five lines. The bars of the last three stand one below
the other, and the caret stands below the token that the diagnostic blames, but for as many columns
to the right as there are continuation octets in front of the token (`report_of_mem_parse`).
-/

namespace MonkeyLang

open Text

/-! ### Trimming -/

theorem not_isIndent_of_isVisible {c : Char} (hc : isVisible c) : ¬ isIndent c := by
  simp only [isIndent, Bool.or_eq_true, decide_eq_true_eq]
  rintro (rfl | rfl) <;> exact absurd hc (by decide)

theorem not_isWhiteSpace_of_isVisible {c : Char} (hc : isVisible c) : ¬ isWhiteSpace c := by
  rw [isVisible_iff] at hc
  simp only [isWhiteSpace, whiteSpaceRanges, List.any_cons, List.any_nil, Bool.or_false,
    Bool.or_eq_true, Bool.and_eq_true, decide_eq_true_eq]
  omega

/-- The indentation of a line lies in front of its other characters. -/
theorem dropWhile_isIndent_append_cons {c : Char} (hc : ¬ isIndent c) (front rest : List Char) :
    (front ++ c :: rest).dropWhile isIndent = front.dropWhile isIndent ++ c :: rest := by
  rw [List.dropWhile_append, List.dropWhile_cons_of_neg hc]
  split
  · rename_i hnil
    rw [List.isEmpty_iff.1 hnil, List.nil_append]
  · rfl

/-- The white space at the end of a line lies behind its other characters. -/
theorem dropTrailingSpace_append_cons {c : Char} (hc : ¬ isWhiteSpace c) (front rest : List Char) :
    dropTrailingSpace (front ++ c :: rest) = front ++ c :: dropTrailingSpace rest := by
  have hdrop (cs : List Char) : dropTrailingSpace cs = cs.rdropWhile isWhiteSpace := rfl
  rw [hdrop, hdrop]
  induction rest using List.reverseRecOn with
  | nil => exact List.rdropWhile_concat_neg _ _ _ hc
  | append_singleton rest d ih =>
    rw [← List.cons_append, ← List.append_assoc, List.rdropWhile_concat, List.rdropWhile_concat, ih]
    split <;> simp

theorem dropTrailingSpace_concat {c : Char} (hc : isWhiteSpace c) (cs : List Char) :
    dropTrailingSpace (cs ++ [c]) = dropTrailingSpace cs := by
  rw [dropTrailingSpace, List.reverse_concat, List.dropWhile_cons_of_pos hc, dropTrailingSpace]

theorem mem_of_mem_dropTrailingSpace {c : Char} {cs : List Char} (h : c ∈ dropTrailingSpace cs) :
    c ∈ cs := by
  rw [dropTrailingSpace, List.mem_reverse] at h
  exact List.mem_reverse.1 ((List.dropWhile_sublist _).subset h)

theorem lineFeed_not_mem_trimmed {ls : List (List Char)} (hls : AreLines ls) {cs : List Char}
    (hcs : cs ∈ ls) : '\n' ∉ dropTrailingSpace (cs.dropWhile isIndent) := by
  obtain ⟨line, hline, hends⟩ := hls.exists_of_mem hcs
  have hquoted : '\n' ∉ dropTrailingSpace (line.dropWhile isIndent) := fun h =>
    hline ((List.dropWhile_sublist _).subset (mem_of_mem_dropTrailingSpace h))
  obtain rfl | rfl := hends
  · exact hquoted
  · rw [dropWhile_isIndent_append_cons (by decide), dropTrailingSpace_concat (by decide)]
    exact hquoted

/-! ### Columns -/

theorem findIdx?_append_cons {p : Char → Bool} {front : List Char} {c : Char}
    (hfront : ∀ d ∈ front, ¬ p d) (hc : p c) (rest : List Char) :
    (front ++ c :: rest).findIdx? p = some front.length := by
  have hnone : front.findIdx? p = none := by
    rw [List.findIdx?_eq_none_iff]
    simpa using hfront
  rw [List.findIdx?_append, hnone, List.findIdx?_cons, if_pos hc]
  simp

theorem toList_bar (number : String) :
    (bar number).toList = List.replicate (number.length + 1) ' ' ++ ['|'] := by
  simp [bar]

theorem toList_caret (column : Nat) :
    (caret column).toList = List.replicate column '-' ++ ['^'] := by
  simp [caret]

theorem toList_body (number text : String) :
    (number ++ " | " ++ text).toList = number.toList ++ [' '] ++ '|' :: ' ' :: text.toList := by
  simp

/-- The caret stands behind the margin, a bar, a blank and the rule of dashes. -/
theorem findIdx?_caret (number : String) (column : Nat) :
    (bar number ++ " " ++ caret column).toList.findIdx? (· = '^') =
      some (number.length + 3 + column) := by
  have hfront : ∀ d ∈ (bar number ++ " ").toList ++ List.replicate column '-',
      ¬ decide (d = '^') := by
    intro d hd heq
    obtain rfl : d = '^' := of_decide_eq_true heq
    simp [toList_bar] at hd
  have hlength : ((bar number ++ " ").toList ++ List.replicate column '-').length =
      number.length + 3 + column := by
    rw [String.toList_append, toList_bar]
    simp only [List.length_append, List.length_replicate]
    rfl
  rw [String.toList_append, toList_caret, ← List.append_assoc,
    findIdx?_append_cons hfront (by decide), hlength]

/-! ### Quotations -/

namespace Text.Line

/-- The bars of a quotation stand one below the other, however long the number of the line is. -/
theorem findIdx?_bar_of_mem_quotation {line : Line} {l : String} (hl : l ∈ line.quotation) :
    l.toList.findIdx? (· = '|') = some ((Nat.repr line.number).length + 1) := by
  have hmargin (n : Nat) (rest : List Char) :
      (List.replicate n ' ' ++ '|' :: rest).findIdx? (· = '|') = some n := by
    have hspaces : ∀ d ∈ List.replicate n ' ', ¬ decide (d = '|') := by
      intro d hd
      rw [List.eq_of_mem_replicate hd]
      decide
    rw [findIdx?_append_cons hspaces (by decide), List.length_replicate]
  have hnumber : ∀ d ∈ (Nat.repr line.number).toList ++ [' '], ¬ decide (d = '|') := by
    intro d hd heq
    obtain rfl : d = '|' := of_decide_eq_true heq
    rcases List.mem_append.1 hd with hd | hd
    · exact absurd ((isDigits_repr _).isDigit _ hd) (by decide)
    · exact absurd hd (by decide)
  simp only [quotation, List.mem_cons, List.not_mem_nil, or_false] at hl
  obtain rfl | rfl | rfl := hl
  · rw [toList_bar]
    exact hmargin _ _
  · rw [toList_body, findIdx?_append_cons hnumber (by decide), List.length_append,
      String.length_toList]
    rfl
  · rw [String.toList_append, String.toList_append, toList_bar, List.append_assoc,
      List.append_assoc]
    exact hmargin _ _

theorem lineFeed_not_mem_quotation {ls : List (List Char)} (hls : AreLines ls) {line : Line}
    (hline : line.text.toList ∈ ls) : ∀ l ∈ line.quotation, '\n' ∉ l.toList := by
  have hbar (number : String) : '\n' ∉ (bar number).toList := by
    simp [toList_bar]
  have hnumber : '\n' ∉ (Nat.repr line.number).toList := fun h =>
    absurd ((isDigits_repr _).isDigit _ h) (by decide)
  have hquoted : '\n' ∉ line.quoted := lineFeed_not_mem_trimmed hls hline
  intro l hl
  simp only [quotation, List.mem_cons, List.not_mem_nil, or_false] at hl
  obtain rfl | rfl | rfl := hl
  · exact hbar _
  · simpa [toList_body, -Nat.toList_repr, hnumber] using hquoted
  · simp [hbar, toList_caret]

theorem exists_quotation_eq (line : Line) :
    ∃ rule body pointer, line.quotation = [rule, body, pointer] ∧
      body = Nat.repr line.number ++ " | " ++ String.ofList line.quoted ∧
      pointer.toList.findIdx? (· = '^') =
        some ((Nat.repr line.number).length + 3 + line.caretColumn) :=
  ⟨_, _, _, rfl, rfl, findIdx?_caret _ _⟩

/-- A word that can be seen is quoted, and the caret counts octets where the quotation counts
characters. -/
theorem quoted_eq_append {line : Line} {front word back : List Char}
    (htext : line.text.toList = front ++ word ++ back) (hword : ∀ c ∈ word, isVisible c)
    (hne : word ≠ []) (hcolumn : line.column = (front.flatMap octetsOf).length) :
    line.quoted = front.dropWhile isIndent ++ word ++ dropTrailingSpace back ∧
      line.caretColumn =
        (front.dropWhile isIndent).length + (front.flatMap octetsOf).countP isContinuation := by
  have hunindented : line.unindented = front.dropWhile isIndent ++ word ++ back := by
    obtain ⟨c, word, rfl⟩ := List.exists_cons_of_ne_nil hne
    have hc : ¬ isIndent c := not_isIndent_of_isVisible (hword c List.mem_cons_self)
    rw [unindented, htext, List.append_assoc, List.append_assoc, List.cons_append,
      dropWhile_isIndent_append_cons hc]
  constructor
  · obtain rfl | ⟨word, c, rfl⟩ := List.eq_nil_or_concat' word
    · exact absurd rfl hne
    · have hc : ¬ isWhiteSpace c := not_isWhiteSpace_of_isVisible (hword c (by simp))
      have happend (ds : List Char) : front.dropWhile isIndent ++ (word ++ [c]) ++ ds =
          front.dropWhile isIndent ++ word ++ c :: ds := by simp
      rw [quoted, hunindented, happend, dropTrailingSpace_append_cons hc, happend]
  · have hlength : line.text.length = front.length + word.length + back.length := by
      rw [← String.length_toList, htext, List.length_append, List.length_append]
    have hle : (front.dropWhile isIndent).length ≤ front.length :=
      (List.dropWhile_sublist _).length_le
    have hchars := length_add_countP_isContinuation front
    rw [caretColumn, hunindented, hlength, hcolumn, ← hchars]
    simp only [List.length_append]
    omega

end Text.Line

/-! ### The line feeds of a report -/

theorem lineFeed_not_mem_headline {d : Diagnostic}
    (hfound : '\n' ∉ d.fault.found.literal.toList) : '\n' ∉ d.headline.toList := by
  have hname (kind : TokenKind) : '\n' ∉ kind.name.toList := by
    cases kind <;> decide
  obtain ⟨fault, position⟩ := d
  cases fault with
  | unexpectedToken expected found =>
    simp [Diagnostic.headline, Fault.hint?, Fault.name, hname]
  | unrecognisedStatement found =>
    have hliteral : '\n' ∉ found.literal.toList := hfound
    by_cases hkind : found.kind = .illegal
    · simp [Diagnostic.headline, Fault.hint?, Fault.name, hkind]
    · simp [Diagnostic.headline, Fault.hint?, Fault.name, hkind, hliteral]
  | invalidNumber found =>
    have hliteral : '\n' ∉ found.literal.toList := hfound
    simp [Diagnostic.headline, Fault.hint?, Fault.name, hliteral]

theorem lineFeed_not_mem_literal {source : String} {file : Option String} {t : LocatedToken}
    (ht : t ∈ (Cursor.ofSource source file).tokens) : '\n' ∉ t.token.literal.toList := by
  rw [tokens_ofSource] at ht
  rcases List.mem_append.1 ht with ht | ht
  · obtain ⟨n, c, rest, -, -, hc, htoken⟩ := exists_drop_of_mem_scan ht
    rw [htoken, Token.ofLexeme, String.toList_ofList]
    intro h
    exact not_isBlank_of_mem_lexeme hc h (by decide)
  · rw [List.mem_singleton.1 ht]
    exact List.not_mem_nil

theorem prefix_throughLineFeed {word os : List Char} (h : word <+: os) (hword : '\n' ∉ word) :
    word <+: throughLineFeed os := by
  obtain ⟨rest, rfl⟩ := h
  rw [throughLineFeed_append hword]
  exact List.prefix_append _ _

/-! ### Reports on programs -/

theorem countP_isContinuation_of_forall_lt {os : List Char} (h : ∀ c ∈ os, c.toNat < 128) :
    os.countP isContinuation = 0 := by
  rw [List.countP_eq_zero]
  intro c hc
  have hlt := h c hc
  simp only [isContinuation, Bool.and_eq_true, decide_eq_true_eq]
  omega

/-- On the line of a token that is not illegal its literal stands behind the characters whose octets
are in front of it. -/
theorem exists_text_eq_append {source : String} {file : Option String} {t : LocatedToken}
    (ht : t ∈ (Cursor.ofSource source file).tokens) (heof : t.kind ≠ .eof)
    (hillegal : t.kind ≠ .illegal) {line : Line} (hline : line.Holds 1 (octets source) t.offset) :
    ∃ front back, line.text.toList = front ++ t.token.literal.toList ++ back ∧
      front.flatMap octetsOf = behindLineFeed ((octets source).take t.offset) ∧
      (∀ c ∈ t.token.literal.toList, isVisible c) ∧ t.token.literal.toList ≠ [] := by
  have hvisible := isVisible_of_mem_tokens ht hillegal
  have hfeed := lineFeed_not_mem_literal ht
  have hscan : t ∈ scan 0 (octets source) := by
    rw [tokens_ofSource] at ht
    rcases List.mem_append.1 ht with ht | ht
    · exact ht
    · rw [List.mem_singleton.1 ht] at heof
      exact absurd rfl heof
  have hne := literal_ne_nil_of_mem_scan hscan
  obtain ⟨rest, hrest⟩ := prefix_throughLineFeed (literal_prefix_of_mem_scan hscan) hfeed
  have htext := hline.text
  rw [← hrest, ← List.append_assoc] at htext
  obtain ⟨front, back, hsplit, hfront⟩ := exists_eq_append_append_of_octets_eq htext
    (fun c hc => toNat_lt_of_isVisible (hvisible c hc)) hne
  exact ⟨front, back, hsplit, hfront, hvisible, hne⟩

/-- The literal of a token that is not illegal stands in the quotation of its line, and the caret
as many columns further on as there are continuation octets in front of it. -/
theorem exists_quoted_eq_append {source : String} {file : Option String} {t : LocatedToken}
    (ht : t ∈ (Cursor.ofSource source file).tokens) (heof : t.kind ≠ .eof)
    (hillegal : t.kind ≠ .illegal) {line : Line} (hline : line.Holds 1 (octets source) t.offset) :
    ∃ front behind, octets (String.ofList front) = behindLineFeed ((octets source).take t.offset) ∧
      line.quoted = front.dropWhile isIndent ++ t.token.literal.toList ++ behind ∧
      line.caretColumn =
        (front.dropWhile isIndent).length +
          (behindLineFeed ((octets source).take t.offset)).countP isContinuation := by
  obtain ⟨front, back, htext, hfront, hvisible, hne⟩ :=
    exists_text_eq_append ht heof hillegal hline
  have hcolumn : line.column = (front.flatMap octetsOf).length := by
    rw [hfront, hline.column]
  obtain ⟨hquoted, hcaret⟩ := Line.quoted_eq_append htext hvisible hne hcolumn
  rw [hfront] at hcaret
  exact ⟨front, _, (octets_ofList front).trans hfront, hquoted, hcaret⟩

theorem lineFeed_not_mem_file {source : String} {file : Option String} {d : Diagnostic}
    (hsize : source.utf8ByteSize < 2 ^ 32) (hfile : ∀ name ∈ file, '\n' ∉ name.toList)
    (hd : d ∈ (parse source file).2) : '\n' ∉ d.position.file.toList := by
  obtain ⟨u, hu, -⟩ := exists_blames_of_mem_parse hsize hd
  have hposition : d.position.file = file.getD Cursor.defaultFile :=
    congrArg Position.file hu.position_eq
  rw [hposition]
  cases file with
  | none => decide
  | some name => exact hfile name rfl

/-- A diagnostic on a program whose caret fits has a report, of five lines. The bars of the last three
stand in one column. The fourth shows the number of the line of the diagnostic, and the line without the white
space around it. In it the token at fault, unless it is illegal or the end of the text, stands
above the caret, or to the left of that by as many columns as there are continuation octets in
front of it on its line. -/
theorem report_of_mem_parse {source : String} {file : Option String} {d : Diagnostic}
    (hsize : source.utf8ByteSize < 2 ^ 32)
    (hfile : ∀ name ∈ file, '\n' ∉ name.toList) (hd : d ∈ (parse source file).2)
    (hfits : d.CaretFits source) :
    let front := (octets source).take d.position.offset.toNat
    let lead := behindLineFeed front
    let number := Nat.repr (1 + front.count '\n')
    ∃ heading place rule body pointer : String,
      d.report? source =
        some (String.join ([heading, place, rule, body, pointer].map (· ++ "\n"))) ∧
      (∀ l ∈ [heading, place, rule, body, pointer], '\n' ∉ l.toList) ∧
      (∀ l ∈ [rule, body, pointer], l.toList.findIdx? (· = '|') = some (number.length + 1)) ∧
      ∃ line text : String,
        octets line = lead ++ throughLineFeed ((octets source).drop d.position.offset.toNat) ∧
        text.toList = dropTrailingSpace (line.toList.dropWhile isIndent) ∧
        body = number ++ " | " ++ text ∧
        (d.fault.found.kind ≠ .eof → d.fault.found.kind ≠ .illegal →
          ∃ before behind : List Char, octets (String.ofList before) = lead ∧
            text.toList =
              before.dropWhile isIndent ++ d.fault.found.literal.toList ++ behind ∧
            pointer.toList.findIdx? (· = '^') =
              some ((number ++ " | ").length + (before.dropWhile isIndent).length +
                lead.countP isContinuation)) ∧
        ((∀ c ∈ lead, c.toNat < 128) → lead.countP isContinuation = 0) := by
  intro front lead number
  obtain ⟨u, hu, hoffset⟩ := exists_blames_of_mem_parse hsize hd
  obtain ⟨line, hline, hmem, hholds⟩ := exists_lineAt?_eq_some (offset_le_of_mem_parse hd)
  have hplace : '\n' ∉ ("-> " ++ d.position.file).toList := by
    simpa using lineFeed_not_mem_file hsize hfile hd
  have hheading : '\n' ∉ d.headline.toList := by
    apply lineFeed_not_mem_headline
    rw [hu.found_eq]
    exact lineFeed_not_mem_literal hu.mem
  obtain ⟨rule, body, pointer, hquotation, hbody, hcaret⟩ := line.exists_quotation_eq
  have hlines : d.reportLines source =
      [d.headline, "-> " ++ d.position.file, rule, body, pointer] := by
    rw [Diagnostic.reportLines, hline, ← hquotation]
    rfl
  have hfeeds := Line.lineFeed_not_mem_quotation (areLines_lines source.toList) hmem
  have hbars : ∀ l ∈ line.quotation, l.toList.findIdx? (· = '|') = _ :=
    fun l hl => Line.findIdx?_bar_of_mem_quotation hl
  rw [hquotation] at hfeeds hbars
  rw [hholds.number] at hbars hbody hcaret
  refine ⟨d.headline, "-> " ++ d.position.file, rule, body, pointer, ?_, ?_, hbars,
    line.text, _, hholds.text, String.toList_ofList, hbody, ?_,
    countP_isContinuation_of_forall_lt⟩
  · rw [Diagnostic.report?_of_caretFits hfits, Diagnostic.report, hlines]
  · exact List.forall_mem_cons.2 ⟨hheading, List.forall_mem_cons.2 ⟨hplace, hfeeds⟩⟩
  · intro heof hillegal
    rw [hu.found_eq] at heof hillegal ⊢
    rw [hoffset] at hholds
    obtain ⟨before, behind, hbefore, hquoted, hcolumn⟩ :=
      exists_quoted_eq_append hu.mem heof hillegal hholds
    have hmargin : (number ++ " | ").length = number.length + 3 :=
      String.length_append _ _
    rw [← hoffset] at hbefore hcolumn
    refine ⟨before, behind, hbefore, String.toList_ofList.trans hquoted, ?_⟩
    rw [hcaret, hcolumn, hmargin, Nat.add_assoc _ (List.length _)]

/-- Behind a character of two octets the caret stands one column too far to the right. -/
theorem report_of_mem_parse_accent :
    let source := "let a = 1;\r\n\té; let 5 x \r\n"
    let d : Diagnostic := ⟨.unexpectedToken .ident ⟨.int, "5"⟩, ⟨21, "totals.mk"⟩⟩
    source.utf8ByteSize < 2 ^ 32 ∧ (∀ name ∈ some "totals.mk", '\n' ∉ name.toList) ∧
      d ∈ (parse source (some "totals.mk")).2 ∧ d.CaretFits source ∧
      d.report? source =
        some ("Error: UnexpectedToken (expected next token to be `IDENT`, got `INT` instead)\n" ++
          "-> totals.mk\n  |\n2 | é; let 5 x\n  | --------^\n") ∧
      ∃ (text pointer : String) (before behind : List Char),
        octets (String.ofList before) = octets "\té; let " ∧
          text.toList = before.dropWhile isIndent ++ "5".toList ++ behind ∧
          pointer.toList.findIdx? (· = '^') =
            some (("2" ++ " | ").length + (before.dropWhile isIndent).length + 1) := by
  intro source d
  have hsize : source.utf8ByteSize < 2 ^ 32 := by decide
  have hfile : ∀ name ∈ some "totals.mk", '\n' ∉ name.toList := by decide
  have hd : d ∈ (parse source (some "totals.mk")).2 := by decide +kernel
  have hfits : d.CaretFits source := by decide +kernel
  have hfront : 1 + ((octets source).take d.position.offset.toNat).count '\n' = 2 := by
    decide +kernel
  have hlead : behindLineFeed ((octets source).take d.position.offset.toNat) =
      octets "\té; let " := by decide +kernel
  have hcount : (octets "\té; let ").countP isContinuation = 1 := by decide +kernel
  obtain ⟨-, -, -, -, pointer, -, -, -, -, text, -, -, -, hpoints, -⟩ :=
    report_of_mem_parse hsize hfile hd hfits
  obtain ⟨before, behind, hbefore, htext, hcaret⟩ :=
    hpoints TokenKind.noConfusion TokenKind.noConfusion
  rw [hfront, hlead, hcount] at hcaret
  rw [hlead] at hbefore
  exact ⟨hsize, hfile, hd, hfits, by decide +kernel, text, pointer, before, behind, hbefore, htext, hcaret⟩

end MonkeyLang
