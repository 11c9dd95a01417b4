import Mathlib.Data.List.Pairwise
import Mathlib.Data.List.Sort
import MonkeyLang.Proofs.Token.Tiling

/-!
# Maximal munch

The rules for the token at a place of a text, stated without a scanner: a word and a number run
as far as they can, a pair comes before its first character alone, and any other character is a
token by itself. Tokens that obey the rules where they stand, one after the other, and leave out
nothing but blanks are the tokens that a cursor hands out; there are no others
(`maximalMunch_iff`).
-/

namespace MonkeyLang

open Text

/-! ### The rules -/

/-- The longest run of characters of a class at the front of a text. -/
structure LongestRun (p : Char → Bool) (cs run : List Char) : Prop where
  front : run <+: cs
  all : ∀ c ∈ run, p c
  longest : ∀ other, other <+: cs → (∀ c ∈ other, p c) → other.length ≤ run.length

/-- The reserved words. -/
inductive IsKeyword : String → TokenKind → Prop
  | fnWord : IsKeyword "fn" .fnWord
  | letWord : IsKeyword "let" .letWord
  | returnWord : IsKeyword "return" .returnWord
  | ifWord : IsKeyword "if" .ifWord
  | elseWord : IsKeyword "else" .elseWord
  | trueWord : IsKeyword "true" .trueWord
  | falseWord : IsKeyword "false" .falseWord

/-- The characters that are a symbol whatever follows. -/
inductive IsSymbol : Char → TokenKind → Prop
  | semicolon : IsSymbol ';' .semicolon
  | lparen : IsSymbol '(' .lparen
  | rparen : IsSymbol ')' .rparen
  | comma : IsSymbol ',' .comma
  | plus : IsSymbol '+' .plus
  | minus : IsSymbol '-' .minus
  | slash : IsSymbol '/' .slash
  | asterisk : IsSymbol '*' .asterisk
  | gt : IsSymbol '>' .gt
  | lt : IsSymbol '<' .lt
  | lbrace : IsSymbol '{' .lbrace
  | rbrace : IsSymbol '}' .rbrace

/-- The rules for the token at the front of a text. No token begins with a blank. -/
inductive FirstToken : List Char → Token → Prop
  | stop : FirstToken [] ⟨.eof, ""⟩
  | keyword {c : Char} {cs run : List Char} {kind : TokenKind} (hc : c.isAlpha || c = '_')
      (hrun : LongestRun (fun d => d.isAlphanum || d = '_') (c :: cs) run)
      (hkind : IsKeyword (String.ofList run) kind) :
      FirstToken (c :: cs) ⟨kind, String.ofList run⟩
  | ident {c : Char} {cs run : List Char} (hc : c.isAlpha || c = '_')
      (hrun : LongestRun (fun d => d.isAlphanum || d = '_') (c :: cs) run)
      (hkind : ∀ kind, ¬ IsKeyword (String.ofList run) kind) :
      FirstToken (c :: cs) ⟨.ident, String.ofList run⟩
  | number {c : Char} {cs run : List Char} (hc : c.isDigit)
      (hrun : LongestRun Char.isDigit (c :: cs) run) :
      FirstToken (c :: cs) ⟨.int, String.ofList run⟩
  | eq {cs : List Char} : FirstToken ('=' :: '=' :: cs) ⟨.eq, "=="⟩
  | notEq {cs : List Char} : FirstToken ('!' :: '=' :: cs) ⟨.notEq, "!="⟩
  | assign {cs : List Char} (hnext : cs.head? ≠ some '=') : FirstToken ('=' :: cs) ⟨.assign, "="⟩
  | bang {cs : List Char} (hnext : cs.head? ≠ some '=') : FirstToken ('!' :: cs) ⟨.bang, "!"⟩
  | symbol {c : Char} {cs : List Char} {kind : TokenKind} (hkind : IsSymbol c kind) :
      FirstToken (c :: cs) ⟨kind, String.ofList [c]⟩
  | illegal {c : Char} {cs : List Char} (hletter : ¬ (c.isAlpha || c = '_'))
      (hdigit : ¬ c.isDigit) (heq : c ≠ '=') (hbang : c ≠ '!')
      (hsymbol : ∀ kind, ¬ IsSymbol c kind)
      (hblank : c ≠ ' ' ∧ c ≠ '\t' ∧ c ≠ '\n' ∧ c ≠ '\r') :
      FirstToken (c :: cs) ⟨.illegal, String.ofList [c]⟩

/-- Tokens from left to right that obey the rules where they stand and pass over nothing but
blanks. -/
structure MaximalMunch (cs : List Char) (ts : List LocatedToken) : Prop where
  ordered : ts.Pairwise fun t u => t.offset < u.offset ∧ t.finish ≤ u.offset
  covers : ∀ (i : Nat) (c : Char), cs[i]? = some c →
    (c ≠ ' ' ∧ c ≠ '\t' ∧ c ≠ '\n' ∧ c ≠ '\r') → ∃ t ∈ ts, t.Covers i
  stop : ⟨⟨.eof, ""⟩, cs.length⟩ ∈ ts
  first : ∀ t ∈ ts, t.offset ≤ cs.length ∧ FirstToken (cs.drop t.offset) t.token

/-! ### The rules describe lexemes -/

theorem isAlphanum_or_eq_isWordChar :
    (fun c : Char => c.isAlphanum || c = '_') = isWordChar := by
  funext c
  rw [isWordChar, isLetter, Char.isAlphanum, Bool.or_assoc, Bool.or_assoc]
  exact congrArg _ (Bool.or_comm _ _)

theorem length_le_length_takeWhile {p : Char → Bool} {cs run : List Char} (hfront : run <+: cs)
    (hall : ∀ c ∈ run, p c) : run.length ≤ (cs.takeWhile p).length := by
  obtain ⟨rest, rfl⟩ := hfront
  rw [List.takeWhile_append_of_pos hall, List.length_append]
  exact Nat.le_add_right _ _

theorem longestRun_iff {p : Char → Bool} {cs run : List Char} :
    LongestRun p cs run ↔ run = cs.takeWhile p := by
  constructor
  · intro h
    have htake : cs.takeWhile p <+: run := by
      apply List.prefix_of_prefix_length_le (List.takeWhile_prefix p) h.front
      exact h.longest _ (List.takeWhile_prefix p) fun c hc => List.mem_takeWhile_imp hc
    exact (htake.eq_of_length_le (length_le_length_takeWhile h.front h.all)).symm
  · rintro rfl
    refine ⟨List.takeWhile_prefix p, ?_, ?_⟩
    · intro c hc
      exact List.mem_takeWhile_imp hc
    · intro other hfront hall
      exact length_le_length_takeWhile hfront hall

theorem isKeyword_iff {word : String} {kind : TokenKind} :
    IsKeyword word kind ↔ TokenKind.keywords.lookup word = some kind := by
  have hall : ∀ entry ∈ TokenKind.keywords, IsKeyword entry.1 entry.2 := by
    simp only [TokenKind.keywords, List.forall_mem_cons]
    exact ⟨.fnWord, .letWord, .returnWord, .ifWord, .elseWord, .trueWord, .falseWord, nofun⟩
  constructor
  · intro h
    cases h <;> decide
  · intro h
    exact hall _ (TokenKind.mem_of_lookup_eq_some h)

theorem ofWord_of_isKeyword {word : String} {kind : TokenKind} (h : IsKeyword word kind) :
    TokenKind.ofWord word = kind := by
  rw [TokenKind.ofWord, isKeyword_iff.1 h]
  rfl

theorem ofWord_of_not_isKeyword {word : String} (h : ∀ kind, ¬ IsKeyword word kind) :
    TokenKind.ofWord word = .ident := by
  have hnone : TokenKind.keywords.lookup word = none := by
    rw [Option.eq_none_iff_forall_not_mem]
    intro kind hmem
    exact h kind (isKeyword_iff.2 hmem)
  rw [TokenKind.ofWord, hnone]
  rfl

theorem lookup_of_isSymbol {c : Char} {kind : TokenKind} (h : IsSymbol c kind) :
    TokenKind.symbols.lookup c = some kind := by
  cases h <;> decide

theorem isSymbol_of_lookup {c : Char} {kind : TokenKind} (heq : c ≠ '=') (hbang : c ≠ '!')
    (h : TokenKind.symbols.lookup c = some kind) : IsSymbol c kind := by
  have hall : ∀ entry ∈ TokenKind.symbols,
      entry.1 = '=' ∨ entry.1 = '!' ∨ IsSymbol entry.1 entry.2 := by
    simp only [TokenKind.symbols, List.forall_mem_cons]
    exact ⟨.inl trivial, .inr (.inr .plus), .inr (.inr .minus), .inr (.inr .slash),
      .inr (.inr .asterisk), .inr (.inr .gt), .inr (.inr .lt), .inr (.inl trivial),
      .inr (.inr .comma), .inr (.inr .semicolon), .inr (.inr .lparen), .inr (.inr .rparen),
      .inr (.inr .lbrace), .inr (.inr .rbrace), nofun⟩
  rcases hall _ (TokenKind.mem_of_lookup_eq_some h) with h | h | h
  · exact absurd h heq
  · exact absurd h hbang
  · exact h

/-- A character that is a symbol whatever follows begins nothing longer. -/
theorem begins_of_isSymbol {c : Char} {kind : TokenKind} (h : IsSymbol c kind) :
    ¬ isLetter c ∧ ¬ c.isDigit ∧ ¬ isPairHead c ∧ ¬ isBlank c := by
  cases h <;> decide

/-- The rules give no other token than the one that the lexeme makes. -/
theorem FirstToken.eq_ofLexeme {cs : List Char} {t : Token} (h : FirstToken cs t) :
    t = .ofLexeme (lexeme cs) := by
  cases h with
  | stop => rfl
  | keyword hc hrun hkind =>
    rw [isAlphanum_or_eq_isWordChar, longestRun_iff] at hrun
    rw [ofLexeme_lexeme_of_isLetter hc, ← hrun, ofWord_of_isKeyword hkind]
  | ident hc hrun hkind =>
    rw [isAlphanum_or_eq_isWordChar, longestRun_iff] at hrun
    rw [ofLexeme_lexeme_of_isLetter hc, ← hrun, ofWord_of_not_isKeyword hkind]
  | number hc hrun =>
    rw [longestRun_iff] at hrun
    rw [ofLexeme_lexeme_of_isDigit hc, ← hrun]
  | eq => rfl
  | notEq => rfl
  | assign hnext =>
    rw [lexeme_of_isPairHead (by decide), if_neg hnext]
    rfl
  | bang hnext =>
    rw [lexeme_of_isPairHead (by decide), if_neg hnext]
    rfl
  | symbol hkind =>
    obtain ⟨hletter, hdigit, hpair, -⟩ := begins_of_isSymbol hkind
    rw [ofLexeme_lexeme_of_not_isPairHead hletter hdigit hpair, TokenKind.ofSymbol,
      lookup_of_isSymbol hkind]
    rfl
  | @illegal c cs hletter hdigit heq hbang hsymbol hblank =>
    have hnone : TokenKind.symbols.lookup c = none := by
      rw [Option.eq_none_iff_forall_not_mem]
      intro kind hmem
      exact hsymbol kind (isSymbol_of_lookup heq hbang hmem)
    have hpair : ¬ isPairHead c := by simp [isPairHead, heq, hbang]
    rw [ofLexeme_lexeme_of_not_isPairHead hletter hdigit hpair, TokenKind.ofSymbol, hnone]
    rfl

theorem firstToken_assign (cs : List Char) :
    FirstToken ('=' :: cs) (.ofLexeme (lexeme ('=' :: cs))) := by
  rw [lexeme_of_isPairHead (by decide)]
  by_cases hnext : cs.head? = some '='
  · obtain ⟨rest, rfl⟩ := List.head?_eq_some_iff.1 hnext
    exact .eq
  · rw [if_neg hnext]
    exact .assign hnext

theorem firstToken_bang (cs : List Char) :
    FirstToken ('!' :: cs) (.ofLexeme (lexeme ('!' :: cs))) := by
  rw [lexeme_of_isPairHead (by decide)]
  by_cases hnext : cs.head? = some '='
  · obtain ⟨rest, rfl⟩ := List.head?_eq_some_iff.1 hnext
    exact .notEq
  · rw [if_neg hnext]
    exact .bang hnext

theorem firstToken_of_isLetter {c : Char} (hc : isLetter c) (cs : List Char) :
    FirstToken (c :: cs) (.ofLexeme (lexeme (c :: cs))) := by
  have hrun : LongestRun (fun d => d.isAlphanum || d = '_') (c :: cs)
      ((c :: cs).takeWhile isWordChar) := by
    rw [isAlphanum_or_eq_isWordChar, longestRun_iff]
  rw [ofLexeme_lexeme_of_isLetter hc]
  by_cases hkeyword : ∃ kind, IsKeyword (String.ofList ((c :: cs).takeWhile isWordChar)) kind
  · obtain ⟨kind, hkind⟩ := hkeyword
    rw [ofWord_of_isKeyword hkind]
    exact .keyword hc hrun hkind
  · have hnone := not_exists.1 hkeyword
    rw [ofWord_of_not_isKeyword hnone]
    exact .ident hc hrun hnone

theorem firstToken_of_isDigit {c : Char} (hc : c.isDigit) (cs : List Char) :
    FirstToken (c :: cs) (.ofLexeme (lexeme (c :: cs))) := by
  rw [ofLexeme_lexeme_of_isDigit hc]
  exact .number hc (longestRun_iff.2 rfl)

theorem firstToken_of_not_isPairHead {c : Char} (hletter : ¬ isLetter c) (hdigit : ¬ c.isDigit)
    (heq : c ≠ '=') (hbang : c ≠ '!') (hblank : ¬ isBlank c) (cs : List Char) :
    FirstToken (c :: cs) (.ofLexeme (lexeme (c :: cs))) := by
  have hpair : ¬ isPairHead c := by simp [isPairHead, heq, hbang]
  rw [ofLexeme_lexeme_of_not_isPairHead hletter hdigit hpair, TokenKind.ofSymbol]
  cases hlookup : TokenKind.symbols.lookup c with
  | none =>
    have hsymbol : ∀ kind, ¬ IsSymbol c kind := by
      intro kind hkind
      rw [lookup_of_isSymbol hkind] at hlookup
      cases hlookup
    exact .illegal hletter hdigit heq hbang hsymbol ((not_isBlank_iff c).1 hblank)
  | some kind => exact .symbol (isSymbol_of_lookup heq hbang hlookup)

/-- The rules give the token that the lexeme makes, unless the text begins with a blank. -/
theorem firstToken_ofLexeme {cs : List Char} (hblank : ∀ c ∈ cs.head?, ¬ isBlank c) :
    FirstToken cs (.ofLexeme (lexeme cs)) := by
  cases cs with
  | nil => exact .stop
  | cons c cs =>
    by_cases hletter : isLetter c
    · exact firstToken_of_isLetter hletter cs
    by_cases hdigit : c.isDigit
    · exact firstToken_of_isDigit hdigit cs
    by_cases heq : c = '='
    · rw [heq]
      exact firstToken_assign cs
    by_cases hbang : c = '!'
    · rw [hbang]
      exact firstToken_bang cs
    exact firstToken_of_not_isPairHead hletter hdigit heq hbang (hblank c rfl) cs

theorem firstToken_cons {c : Char} (hc : ¬ isBlank c) (cs : List Char) :
    FirstToken (c :: cs) (.ofLexeme (lexeme (c :: cs))) :=
  firstToken_ofLexeme fun _ hd => Option.mem_some.1 hd ▸ hc

theorem FirstToken.not_isBlank {c : Char} {cs : List Char} {t : Token}
    (h : FirstToken (c :: cs) t) : ¬ isBlank c := by
  cases h with
  | keyword hc _ _ => exact not_isBlank_of_isWordChar (isWordChar_of_isLetter hc)
  | ident hc _ _ => exact not_isBlank_of_isWordChar (isWordChar_of_isLetter hc)
  | number hc _ => exact not_isBlank_of_isWordChar (isWordChar_of_isDigit hc)
  | eq => decide
  | notEq => decide
  | assign _ => decide
  | bang _ => decide
  | symbol hkind => exact (begins_of_isSymbol hkind).2.2.2
  | illegal _ _ _ _ _ hblank => exact (not_isBlank_iff c).2 hblank

theorem FirstToken.head?_of_semicolon {cs : List Char} {t : Token} (h : FirstToken cs t)
    (hkind : t.kind = .semicolon) : cs.head? = some ';' := by
  cases h with
  | @keyword c cs run kind hc hrun hword =>
    obtain rfl : kind = .semicolon := hkind
    -- no reserved word is a semicolon; `cases` can tell once the word is a variable
    generalize String.ofList run = word at hword
    cases hword
  | @symbol c cs kind hsymbol =>
    obtain rfl : kind = .semicolon := hkind
    cases hsymbol
    rfl
  | _ => cases hkind

/-- Only the word `let` is scanned as one. -/
theorem FirstToken.literal_of_letWord {cs : List Char} {t : Token} (h : FirstToken cs t)
    (hkind : t.kind = .letWord) : t.literal = "let" := by
  cases h with
  | @keyword c cs run kind hc hrun hword =>
    obtain rfl : kind = .letWord := hkind
    generalize String.ofList run = word at hword
    cases hword
    rfl
  | @symbol c cs kind hsymbol =>
    obtain rfl : kind = .letWord := hkind
    cases hsymbol
  | _ => cases hkind

/-! ### There is one way to obey the rules -/

namespace MaximalMunch

variable {cs : List Char} {ts us : List LocatedToken} {t u : LocatedToken}

theorem finish_le (h : MaximalMunch cs ts) (ht : t ∈ ts) (hu : u ∈ ts)
    (hlt : t.offset < u.offset) : t.finish ≤ u.offset := by
  have hsymm : Std.Symm fun t u : LocatedToken => t.finish ≤ u.offset ∨ u.finish ≤ t.offset :=
    ⟨fun _ _ => Or.symm⟩
  have hapart : ts.Pairwise fun t u => t.finish ≤ u.offset ∨ u.finish ≤ t.offset :=
    h.ordered.imp fun htu => .inl htu.2
  have hne : t ≠ u := by
    rintro rfl
    exact Nat.lt_irrefl _ hlt
  rcases hapart.forall ht hu hne with hle | hle
  · exact hle
  · have hself := u.offset_le_finish
    omega

/-- A token that is there in one list is there in another that is the same in front of it. -/
theorem mem_of_mem (hts : MaximalMunch cs ts) (hus : MaximalMunch cs us)
    (hbelow : ∀ u, u.offset < t.offset → (u ∈ us → u ∈ ts)) (ht : t ∈ ts) : t ∈ us := by
  obtain ⟨hle, hfirst⟩ := hts.first t ht
  rcases Nat.lt_or_eq_of_le hle with hlt | heq
  · have hdrop : cs.drop t.offset = cs[t.offset] :: cs.drop (t.offset + 1) :=
      List.drop_eq_getElem_cons hlt
    have hblank : ¬ isBlank cs[t.offset] := by
      rw [hdrop] at hfirst
      exact hfirst.not_isBlank
    -- `us` has a token on the first octet of `t`; it cannot begin further left, where it would be
    -- a token of `ts` that overlaps `t`
    obtain ⟨u, hu, hstart, hend⟩ := hus.covers t.offset cs[t.offset]
      (List.getElem?_eq_getElem hlt) ((not_isBlank_iff _).1 hblank)
    rcases Nat.lt_or_eq_of_le hstart with hbefore | hoffset
    · have hfinish := hts.finish_le (hbelow u hbefore hu) ht hbefore
      exact absurd hend (Nat.not_lt.2 hfinish)
    · have htoken : u.token = t.token := by
        have hrule := (hus.first u hu).2
        rw [hoffset] at hrule
        rw [hrule.eq_ofLexeme, hfirst.eq_ofLexeme]
      have hsame : u = t := by
        calc
          u = ⟨u.token, u.offset⟩ := rfl
          _ = ⟨t.token, t.offset⟩ := by rw [htoken, hoffset]
      exact hsame ▸ hu
  · obtain rfl : t = ⟨⟨.eof, ""⟩, cs.length⟩ := by
      rw [heq, List.drop_length] at hfirst
      cases t
      cases hfirst
      exact congrArg _ heq
    exact hus.stop

theorem eq (hts : MaximalMunch cs ts) (hus : MaximalMunch cs us) : ts = us := by
  -- By strong induction on the offset: the lists agree in front of `t`, so neither can have a
  -- token there that reaches into `t`.
  have hmem (n : Nat) : ∀ t : LocatedToken, t.offset = n → (t ∈ ts ↔ t ∈ us) := by
    induction n using Nat.strong_induction_on with
    | _ n ih =>
      rintro t rfl
      constructor
      · exact hts.mem_of_mem hus fun u hu => (ih u.offset hu u rfl).2
      · exact hus.mem_of_mem hts fun u hu => (ih u.offset hu u rfl).1
  have hirrefl : Std.Irrefl fun t u : LocatedToken => t.offset < u.offset :=
    ⟨fun t => Nat.lt_irrefl t.offset⟩
  have hantisymm : Std.Antisymm fun t u : LocatedToken => t.offset < u.offset :=
    ⟨fun t u htu hut => absurd hut (Nat.lt_asymm htu)⟩
  have hts' : ts.Pairwise fun t u => t.offset < u.offset := hts.ordered.imp And.left
  have hus' : us.Pairwise fun t u => t.offset < u.offset := hus.ordered.imp And.left
  exact hts'.eq_of_mem_iff hus' fun t => hmem t.offset t rfl

end MaximalMunch

/-! ### A cursor obeys the rules -/

theorem firstToken_of_mem_scan {offset : Nat} {cs : List Char} {t : LocatedToken}
    (ht : t ∈ scan offset cs) :
    ∃ n, t.offset = offset + n ∧ FirstToken (cs.drop n) t.token := by
  obtain ⟨n, c, rest, hoffset, hdrop, hc, htoken⟩ := exists_drop_of_mem_scan ht
  refine ⟨n, hoffset, ?_⟩
  rw [hdrop, htoken]
  exact firstToken_cons hc rest

theorem maximalMunch_scan (cs : List Char) :
    MaximalMunch cs (scan 0 cs ++ [⟨.endOfText, cs.length⟩]) where
  ordered := (tiles_scan cs).increasing.and (tiles_scan cs).disjoint
  covers := by
    intro i c hi hc
    obtain ⟨t, ht, hcovers⟩ := exists_covers_scan 0 hi ((not_isBlank_iff c).2 hc)
    rw [Nat.zero_add] at hcovers
    exact ⟨t, List.mem_append_left _ ht, hcovers⟩
  stop := List.mem_append_right _ List.mem_cons_self
  first := by
    intro t ht
    rcases List.mem_append.1 ht with ht | ht
    · obtain ⟨n, hoffset, hfirst⟩ := firstToken_of_mem_scan ht
      rw [Nat.zero_add] at hoffset
      refine ⟨t.offset_le_finish.trans (finish_le_length_of_mem_scan ht), ?_⟩
      rw [hoffset]
      exact hfirst
    · rw [List.mem_singleton.1 ht]
      refine ⟨Nat.le_refl _, ?_⟩
      rw [List.drop_length]
      exact .stop

/-- The tokens of a source text are the one list that obeys the rules on its bytes. -/
theorem maximalMunch_iff (source : String) (file : Option String) (ts : List LocatedToken) :
    MaximalMunch (source.toByteArray.data.toList.map Char.ofUInt8) ts ↔
      ts = (Cursor.ofSource source file).tokens := by
  rw [← octets_eq_map_toByteArray, tokens_ofSource]
  constructor
  · intro h
    exact h.eq (maximalMunch_scan _)
  · rintro rfl
    exact maximalMunch_scan _

example : tokenize "===5five! =lets" none =
    [⟨.eq, "=="⟩, ⟨.assign, "="⟩, ⟨.int, "5"⟩, ⟨.ident, "five"⟩, ⟨.bang, "!"⟩, ⟨.assign, "="⟩,
      ⟨.ident, "lets"⟩, .endOfText] := by
  decide +kernel

end MonkeyLang
