import MonkeyLang.Proofs.Token.Concat
import MonkeyLang.Proofs.Token.Munch

/-!
# Where two texts meet

A text that is put behind another one changes its tokens only if the last of them reaches up to
the end and the first character behind it makes it longer. Which characters these are depends on
the kind of the token alone (`Joins`). Everywhere else the tokens of the two texts, one after the
other, are those of the whole, and nowhere else (`tokens_append_iff`).
-/

namespace MonkeyLang

open Text

/-- The kinds of words. -/
inductive TokenKind.IsWord : TokenKind → Prop
  | ident : IsWord .ident
  | keyword {word : String} {kind : TokenKind} (h : IsKeyword word kind) : IsWord kind

/-- The character makes a token of the kind longer. -/
def Joins (kind : TokenKind) (c : Char) : Prop :=
  kind.IsWord ∧ (c.isAlphanum ∨ c = '_') ∨ kind = .int ∧ c.isDigit ∨
    (kind = .assign ∨ kind = .bang) ∧ c = '='

theorem TokenKind.isWord_iff {kind : TokenKind} :
    kind.IsWord ↔ kind ∈ [.ident, .fnWord, .letWord, .returnWord, .ifWord, .elseWord, .trueWord,
      .falseWord] := by
  constructor
  · rintro (_ | h)
    · decide
    · cases h <;> decide
  · intro h
    cases kind with
    | ident => exact .ident
    | fnWord => exact .keyword .fnWord
    | letWord => exact .keyword .letWord
    | returnWord => exact .keyword .returnWord
    | ifWord => exact .keyword .ifWord
    | elseWord => exact .keyword .elseWord
    | trueWord => exact .keyword .trueWord
    | falseWord => exact .keyword .falseWord
    | _ => simp at h

theorem TokenKind.isWord_ofWord (word : String) : (TokenKind.ofWord word).IsWord := by
  by_cases h : ∃ kind, IsKeyword word kind
  · obtain ⟨kind, hkind⟩ := h
    rw [ofWord_of_isKeyword hkind]
    exact .keyword hkind
  · rw [ofWord_of_not_isKeyword (not_exists.1 h)]
    exact .ident

instance : DecidablePred TokenKind.IsWord :=
  fun _ => decidable_of_iff _ TokenKind.isWord_iff.symm

instance (kind : TokenKind) (c : Char) : Decidable (Joins kind c) :=
  inferInstanceAs (Decidable (_ ∨ _))

theorem isWordChar_iff {c : Char} : isWordChar c ↔ c.isAlphanum ∨ c = '_' := by
  simp [← congrFun isAlphanum_or_eq_isWordChar c]

/-! ### The characters that make a token longer -/

section

variable {kind : TokenKind} {c d : Char} {cs : List Char} {t : Token}

theorem joins_iff_of_isWord (h : kind.IsWord) : Joins kind c ↔ isWordChar c := by
  have hne {other : TokenKind} (hother : ¬ other.IsWord) : kind ≠ other := by
    rintro rfl
    exact hother h
  have hint : kind ≠ .int := hne (by decide)
  have hassign : kind ≠ .assign := hne (by decide)
  have hbang : kind ≠ .bang := hne (by decide)
  simp [Joins, isWordChar_iff, h, hint, hassign, hbang]

theorem joins_int_iff : Joins .int c ↔ c.isDigit := by
  have hword : ¬ TokenKind.IsWord .int := by decide
  simp [Joins, hword]

theorem joins_iff_eq (h : kind = .assign ∨ kind = .bang) : Joins kind c ↔ c = '=' := by
  have hword : ¬ kind.IsWord := by
    rcases h with rfl | rfl <;> decide
  have hint : kind ≠ .int := by
    rcases h with rfl | rfl <;> decide
  simp [Joins, hword, hint, h]

/-- No character makes a token of another kind longer. -/
theorem not_joins (h : ¬ (kind.IsWord ∨ kind = .int ∨ kind = .assign ∨ kind = .bang)) :
    ¬ Joins kind c := by
  simp only [not_or] at h
  simp [Joins, h]

theorem isWordChar_or_eq_of_joins (h : Joins kind c) : isWordChar c ∨ c = '=' := by
  rcases h with ⟨-, hc⟩ | ⟨-, hc⟩ | ⟨-, hc⟩
  · exact .inl (isWordChar_iff.2 hc)
  · exact .inl (isWordChar_of_isDigit hc)
  · exact .inr hc

theorem not_isBlank_of_joins (h : Joins kind c) : ¬ isBlank c := by
  rcases isWordChar_or_eq_of_joins h with h | rfl
  · exact not_isBlank_of_isWordChar h
  · decide

theorem toNat_lt_of_joins (h : Joins kind c) : c.toNat < 128 := by
  rcases isWordChar_or_eq_of_joins h with h | rfl
  · exact toNat_lt_of_isWordChar h
  · decide

/-- What extends the lexeme of a token can be told from the kind of the token. -/
theorem FirstToken.isExtendedBy_iff (h : FirstToken (c :: cs) t) :
    isExtendedBy t.literal.toList d ↔ Joins t.kind d := by
  have hword {run : List Char} (hc : isLetter c)
      (hrun : LongestRun (fun d => d.isAlphanum || d = '_') (c :: cs) run) :
      isExtendedBy run d ↔ isWordChar d := by
    rw [isAlphanum_or_eq_isWordChar, longestRun_iff,
      List.takeWhile_cons_of_pos (isWordChar_of_isLetter hc)] at hrun
    rw [hrun, isExtendedBy, if_pos hc]
  cases h with
  | keyword hc hrun hkind =>
    rw [joins_iff_of_isWord (.keyword hkind), String.toList_ofList]
    exact hword hc hrun
  | ident hc hrun hkind =>
    rw [joins_iff_of_isWord .ident, String.toList_ofList]
    exact hword hc hrun
  | number hc hrun =>
    rw [longestRun_iff, List.takeWhile_cons_of_pos hc] at hrun
    rw [joins_int_iff, String.toList_ofList, hrun, isExtendedBy,
      if_neg (not_isLetter_of_isDigit hc), if_pos hc]
  | eq => exact iff_of_false Bool.noConfusion (not_joins (by decide))
  | notEq => exact iff_of_false Bool.noConfusion (not_joins (by decide))
  | assign _ =>
    rw [joins_iff_eq (.inl rfl)]
    exact decide_eq_true_iff
  | bang _ =>
    rw [joins_iff_eq (.inr rfl)]
    exact decide_eq_true_iff
  | symbol hkind =>
    obtain ⟨hletter, hdigit, hpair, -⟩ := begins_of_isSymbol hkind
    refine iff_of_false ?_ ?_
    · simp [isExtendedBy, hletter, hdigit, hpair]
    · cases hkind <;> exact not_joins (by decide)
  | illegal hletter hdigit heq hbang _ _ =>
    have hletter : ¬ isLetter c := hletter
    have hkind : ¬ Joins .illegal d := not_joins (by decide)
    refine iff_of_false ?_ hkind
    simp [isExtendedBy, isPairHead, hletter, hdigit, heq, hbang]

end

/-! ### Tokens that run on -/

theorem not_of_takeWhile_append {p : Char → Bool} {cs ds : List Char} {d : Char}
    (h : (cs ++ d :: ds).takeWhile p = cs) : ¬ p d := by
  intro hd
  have hcs : ∀ c ∈ cs, p c := by
    rw [← h]
    intro c hc
    exact List.mem_takeWhile_imp hc
  rw [List.takeWhile_append_of_pos hcs, List.takeWhile_cons_of_pos hd] at h
  simp at h

/-- A lexeme ends where the character behind it does not extend it. -/
theorem not_isExtendedBy_of_lexeme_eq {cs ds : List Char} {d : Char}
    (h : lexeme (cs ++ d :: ds) = cs) : ¬ isExtendedBy cs d := by
  cases cs with
  | nil => exact Bool.noConfusion
  | cons c cs =>
    rw [List.cons_append] at h
    by_cases hletter : isLetter c
    · simp only [lexeme, isExtendedBy, if_pos hletter, List.cons.injEq, true_and] at h ⊢
      exact not_of_takeWhile_append h
    · by_cases hdigit : c.isDigit
      · simp only [lexeme, isExtendedBy, if_neg hletter, if_pos hdigit, List.cons.injEq,
          true_and] at h ⊢
        exact not_of_takeWhile_append h
      · simp only [lexeme, isExtendedBy, if_neg hletter, if_neg hdigit] at h ⊢
        cases cs with
        | nil =>
          intro hpair
          simp only [List.isEmpty_nil, Bool.and_true, Bool.and_eq_true, decide_eq_true_eq] at hpair
          simp [hpair] at h
        | cons e cs => simp

/-- The last of the tokens reaches up to the place `p`, and the text there makes it longer. -/
def RunsOn (ts : List LocatedToken) (p : Nat) (ds : List Char) : Prop :=
  ∃ t ∈ ts.getLast?, t.finish = p ∧ ∃ d ∈ ds.head?, Joins t.kind d

theorem not_runsOn_nil (p : Nat) (ds : List Char) : ¬ RunsOn [] p ds := by
  simp [RunsOn]

theorem runsOn_cons_of_finish_ne {t : LocatedToken} {p : Nat} (h : t.finish ≠ p)
    (ts : List LocatedToken) (ds : List Char) : RunsOn (t :: ts) p ds ↔ RunsOn ts p ds := by
  cases ts with
  | nil => simp [RunsOn, h]
  | cons u us => simp [RunsOn, List.getLast?_cons_cons]

/-- The last token of a text runs on if the first one becomes longer, or if the last one of what
stands behind the first runs on. -/
theorem runsOn_scan_cons_iff {c : Char} (hc : ¬ isBlank c) (offset : Nat) (cs ds : List Char) :
    RunsOn (scan offset (c :: cs)) (offset + (c :: cs).length) ds ↔
      lexeme (c :: cs ++ ds) ≠ lexeme (c :: cs) ∨
        RunsOn (scan (offset + (lexeme (c :: cs)).length)
          ((c :: cs).drop (lexeme (c :: cs)).length)) (offset + (c :: cs).length) ds := by
  have hfirst := firstToken_cons hc cs
  rw [scan_cons_of_not_isBlank hc]
  by_cases hwhole : lexeme (c :: cs) = c :: cs
  · have hextended (d : Char) :
        isExtendedBy (c :: cs) d ↔ Joins (TokenKind.ofLexeme (c :: cs)) d := by
      rw [hwhole] at hfirst
      have h := hfirst.isExtendedBy_iff (d := d)
      rwa [Token.ofLexeme, String.toList_ofList] at h
    have hlast : RunsOn [⟨.ofLexeme (c :: cs), offset⟩] (offset + (c :: cs).length) ds ↔
        ∃ d ∈ ds.head?, isExtendedBy (c :: cs) d := by
      simp only [RunsOn, List.getLast?_singleton, Option.mem_def, Option.some.injEq,
        exists_eq_left', finish_ofLexeme, true_and, hextended]
      rfl
    rw [hwhole, List.drop_length, scan_nil, hlast]
    simp only [not_runsOn_nil, or_false]
    constructor
    · rintro ⟨d, hd, hextends⟩ hsame
      obtain ⟨ds, rfl⟩ := List.head?_eq_some_iff.1 hd
      exact not_isExtendedBy_of_lexeme_eq hsame hextends
    · intro hne
      by_contra hnone
      simp only [not_exists, not_and] at hnone
      refine hne ?_
      rw [lexeme_append (List.cons_ne_nil c cs) fun _ => hnone, hwhole]
  · have hshort : (lexeme (c :: cs)).length < (c :: cs).length := by
      refine Nat.lt_of_le_of_ne (length_lexeme_le _) fun hlength => hwhole ?_
      exact (lexeme_prefix_self _).eq_of_length hlength
    have hsame : lexeme (c :: cs ++ ds) = lexeme (c :: cs) :=
      lexeme_append (List.cons_ne_nil c cs) fun h => absurd h hwhole
    rw [runsOn_cons_of_finish_ne]
    · simp only [hsame, ne_eq, not_true_eq_false, false_or]
    · rw [finish_ofLexeme]
      omega

/-- Where no token runs on, each text is scanned by itself. -/
theorem scan_append_of_not_runsOn {offset : Nat} {cs ds : List Char}
    (h : ¬ RunsOn (scan offset cs) (offset + cs.length) ds) :
    scan offset (cs ++ ds) = scan offset cs ++ scan (offset + cs.length) ds := by
  fun_induction scan offset cs with
  | case1 => simp
  | case2 offset c cs hc ih =>
    rw [List.length_cons, Nat.add_comm cs.length, ← Nat.add_assoc] at h ⊢
    rw [List.cons_append, scan_cons_of_isBlank hc]
    exact ih h
  | case3 offset c cs hc ih =>
    rw [← scan_cons_of_not_isBlank hc, runsOn_scan_cons_iff hc, not_or, not_not] at h
    obtain ⟨hlexeme, hrest⟩ := h
    rw [← add_length_lexeme_add_length_drop offset (c :: cs)] at hrest ⊢
    rw [List.cons_append, scan_cons_of_not_isBlank hc, ← List.cons_append, hlexeme,
      List.drop_append_of_le_length (length_lexeme_le _), ih hrest, List.cons_append]

/-- Where a token runs on, it is another token in the whole than in the text that it begins in. -/
theorem map_token_scan_append_ne {offset : Nat} {cs ds : List Char}
    (h : RunsOn (scan offset cs) (offset + cs.length) ds) (us : List Token) :
    (scan offset (cs ++ ds)).map LocatedToken.token ≠
      (scan offset cs).map LocatedToken.token ++ us := by
  fun_induction scan offset cs with
  | case1 => exact absurd h (not_runsOn_nil _ _)
  | case2 offset c cs hc ih =>
    rw [List.length_cons, Nat.add_comm cs.length, ← Nat.add_assoc] at h
    rw [List.cons_append, scan_cons_of_isBlank hc]
    exact ih h
  | case3 offset c cs hc ih =>
    rw [← scan_cons_of_not_isBlank hc, runsOn_scan_cons_iff hc] at h
    rw [List.cons_append, scan_cons_of_not_isBlank hc, ← List.cons_append]
    intro heq
    obtain ⟨hfirst, hrest⟩ := List.cons.inj heq
    have hlexeme : lexeme (c :: cs ++ ds) = lexeme (c :: cs) :=
      String.ofList_injective (congrArg Token.literal hfirst)
    rw [hlexeme, List.drop_append_of_le_length (length_lexeme_le _)] at hrest
    refine ih ?_ hrest
    rw [add_length_lexeme_add_length_drop]
    exact h.resolve_left (absurd hlexeme)

/-! ### Texts -/

/-- The last token of a text goes on in the text behind it. -/
def Fuses (u v : String) : Prop :=
  ∃ t ∈ (Cursor.ofSource u none).tokens.dropLast.getLast?, t.finish = u.utf8ByteSize ∧
    ∃ c ∈ v.toList.head?, Joins t.kind c

theorem dropLast_tokens (source : String) (file : Option String) :
    (Cursor.ofSource source file).tokens.dropLast = scan 0 (octets source) := by
  rw [tokens_ofSource, List.dropLast_concat]

theorem runsOn_octets_iff (ts : List LocatedToken) (p : Nat) (v : String) :
    RunsOn ts p (octets v) ↔
      ∃ t ∈ ts.getLast?, t.finish = p ∧ ∃ c ∈ v.toList.head?, Joins t.kind c := by
  have hhead (kind : TokenKind) :
      (∃ d ∈ (octets v).head?, Joins kind d) ↔ ∃ c ∈ v.toList.head?, Joins kind c := by
    refine exists_congr fun d => and_congr_left fun hjoins => ?_
    exact mem_head?_octets_iff_of_lt (toNat_lt_of_joins hjoins) v
  simp only [RunsOn, hhead]

theorem fuses_iff (u v : String) :
    Fuses u v ↔ RunsOn (scan 0 (octets u)) (octets u).length (octets v) := by
  rw [runsOn_octets_iff, Fuses, dropLast_tokens, length_octets_eq_utf8ByteSize]

/-- The tokens of two texts put together are those of the first and, moved behind it, those of the
second, unless the last token of the first goes on in the second. -/
theorem tokens_append_iff (u v : String) (file : Option String) :
    ((Cursor.ofSource (u ++ v) file).tokens =
        (Cursor.ofSource u file).tokens.dropLast ++
          (Cursor.ofSource v file).tokens.map (.shift u.utf8ByteSize) ↔ ¬ Fuses u v) ∧
      (tokenize (u ++ v) file = (tokenize u file).dropLast ++ tokenize v file ↔
        ¬ Fuses u v) := by
  have hsplit : ¬ Fuses u v → (Cursor.ofSource (u ++ v) file).tokens =
      (Cursor.ofSource u file).tokens.dropLast ++
        (Cursor.ofSource v file).tokens.map (.shift u.utf8ByteSize) := by
    intro h
    rw [fuses_iff, ← Nat.zero_add (octets u).length] at h
    rw [dropLast_tokens, tokens_ofSource, tokens_ofSource, octets_append,
      scan_append_of_not_runsOn h, scan_add, length_octets_eq_utf8ByteSize, List.map_append,
      List.append_assoc, List.length_append, Nat.add_comm (octets u).length]
    simp [LocatedToken.shift, length_octets_eq_utf8ByteSize]
  have hforget : (Cursor.ofSource (u ++ v) file).tokens =
        (Cursor.ofSource u file).tokens.dropLast ++
          (Cursor.ofSource v file).tokens.map (.shift u.utf8ByteSize) →
      tokenize (u ++ v) file = (tokenize u file).dropLast ++ tokenize v file := by
    intro h
    rw [tokenize, h, List.map_append, List.map_dropLast, List.map_map]
    rfl
  have hapart : tokenize (u ++ v) file = (tokenize u file).dropLast ++ tokenize v file →
      ¬ Fuses u v := by
    intro h hfuses
    rw [fuses_iff, ← Nat.zero_add (octets u).length] at hfuses
    rw [tokenize_eq, tokenize_eq, tokenize_eq, List.dropLast_concat, ← List.append_assoc,
      octets_append] at h
    exact map_token_scan_append_ne hfuses _ (List.append_cancel_right h)
  exact ⟨⟨hapart ∘ hforget, hsplit⟩, hapart, hforget ∘ hsplit⟩

example : tokenize ("5" ++ "five") none = [⟨.int, "5"⟩, ⟨.ident, "five"⟩, .endOfText] ∧
    tokenize ("five" ++ "5") none = [⟨.ident, "five5"⟩, .endOfText] := by
  decide +kernel

end MonkeyLang
