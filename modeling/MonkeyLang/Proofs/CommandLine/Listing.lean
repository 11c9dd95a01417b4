import Mathlib.Data.List.Nodup
import MonkeyLang.CommandLine
import MonkeyLang.Proofs.Token.Canonical

/-!
# Listed tokens

With `--tokens` the program prints each token of a source text on a line of its own. Up to a
parenthesis the line says the kind of the token, and what is in parentheses the literal; the kinds
without parentheses have one literal each. No literal has a line feed in it, so the tokens can be
read off what is printed (`stdout_tokens_eq_iff`).
-/

namespace MonkeyLang

open Text

/-! ### The printed form of a token -/

/-- Every kind can be told from its name, even from the part in front of a parenthesis. -/
theorem nodup_map_takeWhile_name :
    (TokenKind.all.map fun kind => kind.name.toList.takeWhile (· ≠ '(')).Nodup := by
  decide

theorem takeWhile_display (t : Token) :
    t.display.toList.takeWhile (· ≠ '(') = t.kind.name.toList.takeWhile (· ≠ '(') := by
  rw [Token.display]
  split
  · have hparen : (t.kind.name ++ "(" ++ t.literal ++ ")").toList =
        t.kind.name.toList ++ '(' :: (t.literal.toList ++ [')']) := by simp
    rw [hparen]
    apply takeWhile_append_of_head?
    rintro - d ⟨rfl⟩
    decide
  · rfl

theorem kind_eq_of_display_eq {t u : Token} (h : t.display = u.display) : t.kind = u.kind := by
  apply List.inj_on_of_nodup_map nodup_map_takeWhile_name (TokenKind.mem_all _)
    (TokenKind.mem_all _)
  simp only [← takeWhile_display, h]

theorem literal_eq_of_display_eq {t u : Token} (h : t.display = u.display)
    (hpayload : t.kind.hasPayload) : t.literal = u.literal := by
  have hkind := kind_eq_of_display_eq h
  rw [Token.display, Token.display, ← hkind, if_pos hpayload, if_pos hpayload] at h
  simpa using h

/-! ### The literals of the other kinds -/

theorem IsKeyword.word_eq {word word' : String} {kind : TokenKind} (h : IsKeyword word kind)
    (h' : IsKeyword word' kind) : word = word' := by
  cases h <;> cases h' <;> rfl

/-- A symbol is written as it is named. -/
theorem IsFixed.literal_eq_name {literal : String} {kind : TokenKind} (h : IsFixed literal kind)
    (hword : ¬ kind.IsWord) : literal = kind.name := by
  cases h with
  | keyword h => exact absurd (.keyword h) hword
  | symbol h => cases h <;> rfl
  | _ => rfl

theorem IsFixed.isKeyword {literal : String} {kind : TokenKind} (h : IsFixed literal kind)
    (hword : kind.IsWord) : IsKeyword literal kind := by
  cases h with
  | keyword h => exact h
  | symbol h => cases h <;> exact absurd hword (by decide)
  | _ => exact absurd hword (by decide)

theorem IsFixed.literal_eq {literal literal' : String} {kind : TokenKind}
    (h : IsFixed literal kind) (h' : IsFixed literal' kind) : literal = literal' := by
  by_cases hword : kind.IsWord
  · exact (h.isKeyword hword).word_eq (h'.isKeyword hword)
  · rw [h.literal_eq_name hword, h'.literal_eq_name hword]

theorem Regular.isFixed {t : Token} (h : Regular t) (hpayload : ¬ t.kind.hasPayload) :
    IsFixed t.literal t.kind := by
  cases h with
  | fixed h => exact h
  | ident _ => exact absurd rfl hpayload
  | number _ _ => exact absurd rfl hpayload

/-! ### The tokens of a text -/

section

variable {s s' : String} {file file' : Option String} {t u : Token}

theorem exists_firstToken_of_mem_tokenize (ht : t ∈ tokenize s file) :
    t = .endOfText ∨ ∃ c cs, FirstToken (c :: cs) t ∧ ∀ d ∈ t.literal.toList, ¬ isBlank d := by
  rw [tokenize_eq, List.mem_append, List.mem_map, List.mem_singleton] at ht
  rcases ht with ⟨located, hmem, rfl⟩ | rfl
  · obtain ⟨n, c, cs, -, -, hc, htoken⟩ := exists_drop_of_mem_scan hmem
    refine .inr ⟨c, cs, ?_, ?_⟩
    · rw [htoken]
      exact firstToken_cons hc cs
    · rw [htoken, Token.ofLexeme, String.toList_ofList]
      intro d hd
      exact not_isBlank_of_mem_lexeme hc hd
  · exact .inl rfl

theorem newline_not_mem_display (ht : t ∈ tokenize s file) : '\n' ∉ t.display.toList := by
  have hname : '\n' ∉ t.kind.name.toList := by
    generalize t.kind = kind
    cases kind <;> decide
  have hliteral : '\n' ∉ t.literal.toList := by
    rcases exists_firstToken_of_mem_tokenize ht with rfl | ⟨c, cs, -, hblank⟩
    · decide
    · exact fun hmem => hblank _ hmem rfl
  rw [Token.display]
  split
  · simp [hname, hliteral]
  · exact hname

theorem literal_of_not_hasPayload (ht : t ∈ tokenize s file) (hpayload : ¬ t.kind.hasPayload) :
    t.kind = .eof ∧ t.literal = "" ∨ IsFixed t.literal t.kind := by
  rcases exists_firstToken_of_mem_tokenize ht with rfl | ⟨c, cs, hfirst, -⟩
  · exact .inl ⟨rfl, rfl⟩
  · have hillegal : t.kind ≠ .illegal := by
      intro hkind
      rw [hkind] at hpayload
      exact hpayload rfl
    exact .inr ((hfirst.regular hillegal).isFixed hpayload)

/-- A token that a text has can be told from its printed form. -/
theorem eq_of_display_eq (ht : t ∈ tokenize s file) (hu : u ∈ tokenize s' file')
    (h : t.display = u.display) : t = u := by
  have hkind := kind_eq_of_display_eq h
  have hliteral : t.literal = u.literal := by
    by_cases hpayload : t.kind.hasPayload
    · exact literal_eq_of_display_eq h hpayload
    · have hpayload' : ¬ u.kind.hasPayload := hkind ▸ hpayload
      rcases literal_of_not_hasPayload ht hpayload with ⟨htkind, htliteral⟩ | htfixed
      · rcases literal_of_not_hasPayload hu hpayload' with ⟨-, huliteral⟩ | hufixed
        · rw [htliteral, huliteral]
        · exact absurd (hkind.symm.trans htkind) hufixed.kind_ne.2
      · rcases literal_of_not_hasPayload hu hpayload' with ⟨hukind, -⟩ | hufixed
        · exact absurd (hkind.trans hukind) htfixed.kind_ne.2
        · rw [hkind] at htfixed
          exact htfixed.literal_eq hufixed
  calc
    t = ⟨t.kind, t.literal⟩ := rfl
    _ = ⟨u.kind, u.literal⟩ := by rw [hkind, hliteral]

end

/-- Tokens that can be told apart one by one can be told apart in a row. -/
theorem eq_of_map_toList_display_eq {ts us : List Token}
    (hinj : ∀ t ∈ ts, ∀ u ∈ us, t.display = u.display → t = u)
    (h : ts.map (fun t => t.display.toList) = us.map (fun u => u.display.toList)) : ts = us := by
  induction ts generalizing us with
  | nil => exact (List.map_eq_nil_iff.1 h.symm).symm
  | cons t ts ih =>
    cases us with
    | nil => simp at h
    | cons u us =>
      simp only [List.map_cons, List.cons.injEq, String.toList_inj] at h
      rw [hinj t (by simp) u (by simp) h.1, ih _ h.2]
      intro a ha b hb
      exact hinj a (by simp [ha]) b (by simp [hb])

/-! ### Lines -/

/-- Lines can be read off the text that they make with a line feed behind each. -/
theorem splitOn_flatMap_line {ls : List (List Char)} (h : ∀ l ∈ ls, '\n' ∉ l) :
    (ls.flatMap (· ++ ['\n'])).splitOn '\n' = ls ++ [[]] := by
  induction ls with
  | nil => exact List.splitOn_nil _
  | cons l ls ih =>
    obtain ⟨hl, hls⟩ := List.forall_mem_cons.1 h
    rw [List.flatMap_cons, List.append_assoc, List.singleton_append,
      List.splitOn_append_cons_self_of_not_mem hl, ih hls, List.cons_append]

theorem splitOn_stdout_tokens (name s : String) :
    (CommandLine.printSource .tokens name s).stdout.toList.splitOn '\n' =
      (tokenize s (some name)).map (fun t => t.display.toList) ++ [[]] := by
  have hstdout : (CommandLine.printSource .tokens name s).stdout.toList =
      ((tokenize s (some name)).map fun t => t.display.toList).flatMap (· ++ ['\n']) := by
    simp [CommandLine.printSource, List.flatMap_map]
  rw [hstdout, splitOn_flatMap_line]
  simp only [List.forall_mem_map]
  exact fun t ht => newline_not_mem_display ht

/-- What is printed of two texts is the same only if they have the same tokens. No printed token
has a line feed in it, so there is one line for each of them, the last for the end of the text. -/
theorem stdout_tokens_eq_iff :
    (∀ s t name name', (CommandLine.printSource .tokens name s).stdout =
          (CommandLine.printSource .tokens name' t).stdout ↔
        tokenize s (some name) = tokenize t (some name')) ∧
      ∀ s name, (∀ t ∈ tokenize s (some name), '\n' ∉ t.display.toList) ∧
        ∃ lines,
          (CommandLine.printSource .tokens name s).stdout.toList.splitOn '\n' = lines ++ [[]] ∧
          lines.length = (tokenize s (some name)).length ∧
          lines.getLast? = some "EOF".toList := by
  constructor
  · intro s t name name'
    constructor
    · intro h
      have hlines := congrArg (fun text : String => text.toList.splitOn '\n') h
      simp only [splitOn_stdout_tokens] at hlines
      have hdisplay := List.append_cancel_right hlines
      apply eq_of_map_toList_display_eq fun t ht u hu => eq_of_display_eq ht hu
      exact hdisplay
    · intro h
      simp only [CommandLine.printSource, h]
  · intro s name
    refine ⟨fun t ht => newline_not_mem_display ht, _, splitOn_stdout_tokens name s, ?_, ?_⟩
    · rw [List.length_map]
    · rw [tokenize_eq, List.map_append, List.map_singleton, List.getLast?_concat]
      rfl

/-- Blanks do not show in what is printed; a token of another kind does. -/
theorem stdout_tokens_eq_iff_blanks :
    (CommandLine.printSource .tokens "t" "x )\n@").stdout =
        (CommandLine.printSource .tokens "u" "\tx) @").stdout ∧
      (CommandLine.printSource .tokens "t" "== =").stdout ≠
        (CommandLine.printSource .tokens "t" "= ==").stdout := by
  have hsame : tokenize "x )\n@" (some "t") = tokenize "\tx) @" (some "u") := by decide +kernel
  have hother : tokenize "== =" (some "t") ≠ tokenize "= ==" (some "t") := by decide +kernel
  exact ⟨(stdout_tokens_eq_iff.1 _ _ _ _).2 hsame, mt (stdout_tokens_eq_iff.1 _ _ _ _).1 hother⟩

end MonkeyLang
