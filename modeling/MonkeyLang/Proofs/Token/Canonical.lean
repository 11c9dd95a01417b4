import MonkeyLang.Proofs.Token.Boundary
import MonkeyLang.Proofs.Token.Junction

/-!
# Writing tokens out

A canonical token is one that a text can be written with: a keyword or a symbol with its own
literal, a name, a number, or an ASCII character that begins none of these. A text that is written
with canonical tokens, and with blanks where two neighbours would otherwise be read as other
tokens, has these tokens and no others; and every ASCII text is written with its tokens in that
way (`tokenize_written`).
-/

namespace MonkeyLang

open Text

/-! ### Canonical tokens -/

/-- A word that is not reserved. -/
def IsName (name : String) : Prop :=
  ∃ c cs, name.toList = c :: cs ∧ isLetter c ∧ (∀ d ∈ cs, isWordChar d) ∧
    ∀ kind, ¬ IsKeyword name kind

/-- The literals of the keywords and symbols. -/
inductive IsFixed : String → TokenKind → Prop
  | keyword {word : String} {kind : TokenKind} (h : IsKeyword word kind) : IsFixed word kind
  | symbol {c : Char} {kind : TokenKind} (h : IsSymbol c kind) : IsFixed (String.ofList [c]) kind
  | eq : IsFixed "==" .eq
  | notEq : IsFixed "!=" .notEq
  | assign : IsFixed "=" .assign
  | bang : IsFixed "!" .bang

/-- The tokens of the language. -/
inductive Regular : Token → Prop
  | fixed {literal : String} {kind : TokenKind} (h : IsFixed literal kind) :
      Regular ⟨kind, literal⟩
  | ident {name : String} (h : IsName name) : Regular ⟨.ident, name⟩
  | number {digits : String} (hne : digits ≠ "") (h : ∀ c ∈ digits.toList, c.isDigit) :
      Regular ⟨.int, digits⟩

/-- The tokens that an ASCII text is made of: those of the language, and the characters that are no
blanks and begin none of them. -/
inductive Canonical : Token → Prop
  | regular {t : Token} (h : Regular t) : Canonical t
  | illegal {c : Char} (hascii : c.toNat < 128) (hblank : ¬ isBlank c)
      (hfirst : ∀ t, Regular t → c ∉ t.literal.toList.head?) :
      Canonical ⟨.illegal, String.ofList [c]⟩

/-- The kinds of neighbours that blanks have to keep apart. -/
def NeedsGap (left right : TokenKind) : Prop :=
  left.IsWord ∧ (right.IsWord ∨ right = .int) ∨ left = .int ∧ right = .int ∨
    (left = .assign ∨ left = .bang) ∧ (right = .assign ∨ right = .eq)

instance (left right : TokenKind) : Decidable (NeedsGap left right) :=
  inferInstanceAs (Decidable (_ ∨ _))

/-- The texts that are written with the literals of canonical tokens, in order, and with blanks
before, between and behind them; there are some between neighbours that need a gap. -/
inductive Written : List Token → List Char → Prop
  | nil : Written [] []
  | blank {ts : List Token} {c : Char} {cs : List Char} (hc : isBlank c) (h : Written ts cs) :
      Written ts (c :: cs)
  | token {t : Token} {ts : List Token} {cs : List Char} (ht : Canonical t) (h : Written ts cs)
      (hgap : ∀ u ∈ ts.head?, NeedsGap t.kind u.kind → ∃ c ∈ cs.head?, isBlank c) :
      Written (t :: ts) (t.literal.toList ++ cs)

theorem isName_iff {name : String} :
    IsName name ↔ name.toList.head?.any isLetter ∧ name.toList.all isWordChar ∧
      TokenKind.keywords.lookup name = none := by
  have hkeyword : (∀ kind, ¬ IsKeyword name kind) ↔ TokenKind.keywords.lookup name = none := by
    simp only [isKeyword_iff, Option.eq_none_iff_forall_ne_some, ne_eq]
  rw [IsName, ← hkeyword]
  constructor
  · rintro ⟨c, cs, hlist, hc, hcs, hkind⟩
    rw [hlist]
    refine ⟨hc, List.all_eq_true.2 ?_, hkind⟩
    exact List.forall_mem_cons.2 ⟨isWordChar_of_isLetter hc, hcs⟩
  · rintro ⟨hc, hcs, hkind⟩
    cases hlist : name.toList with
    | nil => simp [hlist] at hc
    | cons c cs =>
      rw [hlist] at hc hcs
      exact ⟨c, cs, rfl, hc, (List.forall_mem_cons.1 (List.all_eq_true.1 hcs)).2, hkind⟩

instance : DecidablePred IsName :=
  fun _ => decidable_of_iff _ isName_iff.symm

/-- A word that is scanned as an identifier is a name. -/
theorem FirstToken.isName {cs : List Char} {t : Token} (h : FirstToken cs t)
    (hkind : t.kind = .ident) : IsName t.literal := by
  cases h with
  | @ident c cs run hc hrun hkeyword =>
    rw [isAlphanum_or_eq_isWordChar, longestRun_iff,
      List.takeWhile_cons_of_pos (isWordChar_of_isLetter hc)] at hrun
    refine ⟨c, cs.takeWhile isWordChar, ?_, hc, ?_, hkeyword⟩
    · rw [← hrun, String.toList_ofList]
    · intro d hd
      exact List.mem_takeWhile_imp hd
  | @keyword c cs run kind hc hrun hword =>
    obtain rfl : kind = .ident := hkind
    generalize String.ofList run = word at hword
    cases hword
  | @symbol c cs kind hsymbol =>
    obtain rfl : kind = .ident := hkind
    cases hsymbol
  | _ => cases hkind

/-! ### Canonical tokens are read from their literals -/

section

variable {c : Char} {cs : List Char} {t u : Token}

/-- A token that the lexeme of its literal makes is the first token there. -/
theorem firstToken_of_ofLexeme_eq (hblank : ∀ c ∈ t.literal.toList.head?, ¬ isBlank c)
    (h : Token.ofLexeme (lexeme t.literal.toList) = t) : FirstToken t.literal.toList t := by
  have hfirst := firstToken_ofLexeme hblank
  rwa [h] at hfirst

theorem IsFixed.firstToken {literal : String} {kind : TokenKind} (h : IsFixed literal kind) :
    FirstToken literal.toList ⟨kind, literal⟩ := by
  cases h with
  | keyword h =>
    refine firstToken_of_ofLexeme_eq (t := ⟨kind, literal⟩) ?_ ?_
    · intro c hc
      cases h <;> cases hc <;> decide
    · cases h <;> decide
  | symbol h =>
    rw [String.toList_ofList]
    exact .symbol h
  | eq => exact .eq
  | notEq => exact .notEq
  | assign => exact .assign (by decide)
  | bang => exact .bang (by decide)

/-- A kind with a literal of its own is printed without it, and is not the end of the text. -/
theorem IsFixed.kind_ne {literal : String} {kind : TokenKind} (h : IsFixed literal kind) :
    ¬ kind.hasPayload ∧ kind ≠ .eof := by
  cases h with
  | keyword h => cases h <;> decide
  | symbol h => cases h <;> decide
  | _ => decide

theorem IsFixed.ne_of_hasPayload {literal : String} {kind other : TokenKind}
    (h : IsFixed literal kind) (hother : other.hasPayload) : kind ≠ other := by
  rintro rfl
  exact h.kind_ne.1 hother

theorem IsName.firstToken {name : String} (h : IsName name) :
    FirstToken name.toList ⟨.ident, name⟩ := by
  obtain ⟨c, cs, hlist, hc, hcs, hkeyword⟩ := h
  have hrun : LongestRun (fun d => d.isAlphanum || d = '_') (c :: cs) (c :: cs) := by
    rw [isAlphanum_or_eq_isWordChar, longestRun_iff, eq_comm, List.takeWhile_eq_self_iff]
    exact List.forall_mem_cons.2 ⟨isWordChar_of_isLetter hc, hcs⟩
  obtain rfl : name = String.ofList (c :: cs) := by rw [← hlist, String.ofList_toList]
  rw [hlist]
  exact .ident hc hrun hkeyword

theorem firstToken_number {digits : String} (hne : digits ≠ "")
    (h : ∀ c ∈ digits.toList, c.isDigit) : FirstToken digits.toList ⟨.int, digits⟩ := by
  obtain ⟨cs, rfl⟩ := digits.exists_eq_ofList
  rw [String.toList_ofList] at h ⊢
  cases cs with
  | nil => exact absurd rfl hne
  | cons c cs =>
    refine .number (h c List.mem_cons_self) (longestRun_iff.2 ?_)
    rw [eq_comm, List.takeWhile_eq_self_iff]
    exact h

theorem Regular.firstToken (h : Regular t) : FirstToken t.literal.toList t := by
  cases h with
  | fixed h => exact h.firstToken
  | ident h => exact h.firstToken
  | number hne h => exact firstToken_number hne h

theorem Regular.ne_eof (h : Regular t) : t.kind ≠ .eof := by
  cases h with
  | fixed h => exact h.kind_ne.2
  | ident _ => simp
  | number _ _ => simp

theorem Regular.ne_illegal (h : Regular t) : t.kind ≠ .illegal := by
  cases h with
  | fixed h => exact h.ne_of_hasPayload rfl
  | ident _ => simp
  | number _ _ => simp

theorem FirstToken.regular (h : FirstToken (c :: cs) t) (hkind : t.kind ≠ .illegal) :
    Regular t := by
  have hname := h.isName
  cases h with
  | keyword _ _ hword => exact .fixed (.keyword hword)
  | ident _ _ _ => exact .ident (hname rfl)
  | number hc hrun =>
    refine .number ?_ ?_
    · rw [longestRun_iff, List.takeWhile_cons_of_pos hc] at hrun
      simp [hrun]
    · rw [String.toList_ofList]
      exact hrun.all
  | eq => exact .fixed .eq
  | notEq => exact .fixed .notEq
  | assign _ => exact .fixed .assign
  | bang _ => exact .fixed .bang
  | symbol hsymbol => exact .fixed (.symbol hsymbol)
  | illegal => exact absurd rfl hkind

/-- A character that is illegal is so whatever stands behind it. -/
theorem FirstToken.of_kind_eq_illegal (h : FirstToken (c :: cs) t) (hkind : t.kind = .illegal) :
    t = ⟨.illegal, String.ofList [c]⟩ ∧ ∀ ds, FirstToken (c :: ds) t := by
  cases h with
  | keyword _ _ hword => exact absurd hkind ((IsFixed.keyword hword).ne_of_hasPayload rfl)
  | symbol hsymbol => exact absurd hkind ((IsFixed.symbol hsymbol).ne_of_hasPayload rfl)
  | illegal hletter hdigit heq hbang hsymbol hblank =>
    exact ⟨rfl, fun ds => .illegal hletter hdigit heq hbang hsymbol hblank⟩
  | _ => cases hkind

theorem Canonical.firstToken (h : Canonical t) : FirstToken t.literal.toList t := by
  cases h with
  | regular h => exact h.firstToken
  | @illegal c hascii hblank hfirst =>
    have htoken := firstToken_cons hblank []
    have hkind : (Token.ofLexeme (lexeme [c])).kind = .illegal := by
      by_contra hne
      exact hfirst _ (htoken.regular hne) (by simp [Token.ofLexeme, lexeme])
    rw [(htoken.of_kind_eq_illegal hkind).1] at htoken
    rwa [String.toList_ofList]

theorem Canonical.ne_eof (h : Canonical t) : t.kind ≠ .eof := by
  cases h with
  | regular h => exact h.ne_eof
  | illegal _ _ _ => simp

/-- Canonical tokens are written in ASCII. -/
theorem Canonical.toNat_lt (h : Canonical t) : ∀ c ∈ t.literal.toList, c.toNat < 128 := by
  cases h with
  | regular h =>
    intro c hc
    exact toNat_lt_of_isVisible (h.firstToken.isVisible h.ne_illegal c hc)
  | illegal hascii _ _ => simpa using hascii

theorem Canonical.exists_literal_eq_cons (h : Canonical t) :
    ∃ c cs, t.literal.toList = c :: cs ∧ FirstToken (c :: cs) t := by
  have hfirst := h.firstToken
  cases hliteral : t.literal.toList with
  | nil =>
    rw [hliteral] at hfirst
    cases hfirst
    exact absurd rfl h.ne_eof
  | cons c cs =>
    rw [hliteral] at hfirst
    exact ⟨c, cs, rfl, hfirst⟩

/-- The tokens at the front of a text that begins with an ASCII character are canonical. -/
theorem FirstToken.canonical (h : FirstToken (c :: cs) t) (hc : c.toNat < 128) :
    Canonical t := by
  by_cases hkind : t.kind = .illegal
  · obtain ⟨rfl, hillegal⟩ := h.of_kind_eq_illegal hkind
    refine .illegal hc h.not_isBlank ?_
    intro u hu hmem
    obtain ⟨ds, hliteral⟩ := List.head?_eq_some_iff.1 hmem
    have hfirst := hu.firstToken
    rw [hliteral] at hfirst
    rw [hfirst.eq_ofLexeme, ← (hillegal ds).eq_ofLexeme] at hu
    exact hu.ne_illegal rfl
  · exact .regular (h.regular hkind)

end

/-! ### Neighbours -/

section

variable {d : Char} {ds : List Char} {kind : TokenKind} {u : Token}

theorem FirstToken.isLetter_iff (h : FirstToken (d :: ds) u) : isLetter d ↔ u.kind.IsWord := by
  constructor
  · intro hd
    rw [h.eq_ofLexeme, ofLexeme_lexeme_of_isLetter hd]
    exact TokenKind.isWord_ofWord _
  · intro hword
    cases h with
    | keyword hc _ _ => exact hc
    | ident hc _ _ => exact hc
    | symbol hsymbol => cases hsymbol <;> exact absurd hword (by decide)
    | number _ _ => exact absurd hword (show ¬ TokenKind.IsWord .int by decide)
    | illegal => exact absurd hword (show ¬ TokenKind.IsWord .illegal by decide)
    | _ => exact absurd hword (by decide)

theorem FirstToken.isDigit_iff (h : FirstToken (d :: ds) u) : d.isDigit ↔ u.kind = .int := by
  constructor
  · intro hd
    rw [h.eq_ofLexeme, ofLexeme_lexeme_of_isDigit hd]
  · intro hkind
    cases h with
    | number hc _ => exact hc
    | keyword _ _ hword => exact absurd hkind ((IsFixed.keyword hword).ne_of_hasPayload rfl)
    | symbol hsymbol => exact absurd hkind ((IsFixed.symbol hsymbol).ne_of_hasPayload rfl)
    | _ => cases hkind

theorem FirstToken.eq_iff (h : FirstToken (d :: ds) u) :
    d = '=' ↔ u.kind = .assign ∨ u.kind = .eq := by
  constructor
  · rintro rfl
    rw [h.eq_ofLexeme, lexeme_of_isPairHead (by decide)]
    split
    · exact .inr rfl
    · exact .inl rfl
  · intro hkind
    have hword : ¬ u.kind.IsWord := by
      rcases hkind with hkind | hkind <;> (rw [hkind]; decide)
    cases h with
    | keyword _ _ hkeyword => exact absurd (.keyword hkeyword) hword
    | symbol hsymbol => cases hsymbol <;> simp at hkind
    | eq => rfl
    | assign _ => rfl
    | _ => simp at hkind

/-- A token makes another one in front of it longer where the two need a gap. -/
theorem FirstToken.joins_iff_needsGap (h : FirstToken (d :: ds) u) :
    Joins kind d ↔ NeedsGap kind u.kind := by
  simp only [Joins, NeedsGap, ← isWordChar_iff, isWordChar, Bool.or_eq_true, h.isLetter_iff,
    h.isDigit_iff, h.eq_iff]

end

/-! ### Written texts are read back -/

theorem scan_literal_append {t : Token} {ds : List Char} (ht : Canonical t)
    (hds : ∀ d ∈ ds.head?, ¬ Joins t.kind d) (offset : Nat) :
    scan offset (t.literal.toList ++ ds) =
      ⟨t, offset⟩ :: scan (offset + t.literal.toList.length) ds := by
  obtain ⟨c, cs, hliteral, hfirst⟩ := ht.exists_literal_eq_cons
  have htoken := hfirst.eq_ofLexeme
  have hlexeme : lexeme (c :: cs) = c :: cs := by
    rw [htoken, Token.ofLexeme, String.toList_ofList] at hliteral
    exact hliteral
  have hscan : scan offset (c :: cs) = [⟨t, offset⟩] := by
    rw [scan_cons_of_not_isBlank hfirst.not_isBlank, ← htoken, hlexeme, List.drop_length, scan_nil]
  rw [hliteral, scan_append_of_not_runsOn, hscan, List.singleton_append]
  rw [hscan]
  rintro ⟨u, hu, -, d, hd, hjoins⟩
  obtain rfl : ⟨t, offset⟩ = u := Option.some.inj hu
  exact hds d hd hjoins

/-- A blank ends any token. -/
theorem Canonical.scan_append_blank {t : Token} (ht : Canonical t) {d : Char} (hd : isBlank d)
    (offset : Nat) (ds : List Char) :
    scan offset (t.literal.toList ++ d :: ds) =
      ⟨t, offset⟩ :: scan (offset + t.literal.toList.length + 1) ds := by
  rw [scan_literal_append ht, scan_cons_of_isBlank hd]
  rintro e ⟨rfl⟩ hjoins
  exact not_isBlank_of_joins hjoins hd

theorem Written.head_eq {ts : List Token} {cs : List Char} {d : Char} (h : Written ts cs)
    (hd : d ∈ cs.head?) :
    isBlank d ∨ ∃ u ∈ ts.head?, ∃ ds, FirstToken (d :: ds) u := by
  cases h with
  | nil => cases hd
  | blank hc h =>
    obtain rfl := Option.some.inj hd
    exact .inl hc
  | @token t ts cs ht h hgap =>
    obtain ⟨c, ds, hliteral, hfirst⟩ := ht.exists_literal_eq_cons
    rw [hliteral] at hd
    obtain rfl : c = d := Option.some.inj hd
    exact .inr ⟨t, rfl, ds, hfirst⟩

theorem Written.map_token_scan {ts : List Token} {cs : List Char} (h : Written ts cs)
    (offset : Nat) : (scan offset cs).map LocatedToken.token = ts := by
  induction h generalizing offset with
  | nil => rw [scan_nil, List.map_nil]
  | blank hc _ ih => rw [scan_cons_of_isBlank hc, ih]
  | @token t ts cs ht h hgap ih =>
    rw [scan_literal_append ht, List.map_cons, ih]
    intro d hd hjoins
    rcases h.head_eq hd with hblank | ⟨u, hu, ds, hfirst⟩
    · exact not_isBlank_of_joins hjoins hblank
    · obtain ⟨c, hc, hblank⟩ := hgap u hu (hfirst.joins_iff_needsGap.1 hjoins)
      obtain rfl := Option.mem_unique hc hd
      exact not_isBlank_of_joins hjoins hblank

theorem Written.canonical {ts : List Token} {cs : List Char} (h : Written ts cs) :
    ∀ t ∈ ts, Canonical t := by
  induction h with
  | nil => simp
  | blank _ _ ih => exact ih
  | token ht _ _ ih => exact List.forall_mem_cons.2 ⟨ht, ih⟩

theorem Written.toNat_lt {ts : List Token} {cs : List Char} (h : Written ts cs) :
    ∀ c ∈ cs, c.toNat < 128 := by
  induction h with
  | nil => simp
  | blank hc _ ih => exact List.forall_mem_cons.2 ⟨toNat_lt_of_isBlank hc, ih⟩
  | token ht _ _ ih => exact List.forall_mem_append.2 ⟨ht.toNat_lt, ih⟩

/-- Behind a lexeme comes a blank, or a token that needs no gap in front of it. -/
theorem exists_isBlank_of_needsGap {c : Char} {cs rest : List Char} (hc : ¬ isBlank c)
    (hsplit : lexeme (c :: cs) ++ rest = c :: cs) {offset : Nat} {u : Token}
    (hu : u ∈ ((scan offset rest).map LocatedToken.token).head?)
    (hgap : NeedsGap (TokenKind.ofLexeme (lexeme (c :: cs))) u.kind) :
    ∃ d ∈ rest.head?, isBlank d := by
  cases rest with
  | nil => simp at hu
  | cons d ds =>
    by_cases hd : isBlank d
    · exact ⟨d, rfl, hd⟩
    · rw [scan_cons_of_not_isBlank hd] at hu
      obtain rfl : Token.ofLexeme (lexeme (d :: ds)) = u := Option.some.inj hu
      have hextends := (firstToken_cons hc cs).isExtendedBy_iff.2
        ((firstToken_cons hd ds).joins_iff_needsGap.2 hgap)
      rw [Token.ofLexeme, String.toList_ofList] at hextends
      exact absurd hextends (not_isExtendedBy_of_lexeme_eq (congrArg lexeme hsplit))

/-- An ASCII text is written with its tokens. -/
theorem written_scan {cs : List Char} (hcs : ∀ c ∈ cs, c.toNat < 128) (offset : Nat) :
    Written ((scan offset cs).map LocatedToken.token) cs := by
  fun_induction scan offset cs with
  | case1 => exact .nil
  | case2 offset c cs hc ih =>
    exact .blank hc (ih fun d hd => hcs d (List.mem_cons_of_mem c hd))
  | case3 offset c cs hc ih =>
    have hsplit : lexeme (c :: cs) ++ (c :: cs).drop (lexeme (c :: cs)).length = c :: cs :=
      List.prefix_iff_eq_append.1 (lexeme_prefix_self (c :: cs))
    have hcanonical : Canonical (.ofLexeme (lexeme (c :: cs))) :=
      (firstToken_cons hc cs).canonical (hcs c List.mem_cons_self)
    have hrest : ∀ d ∈ (c :: cs).drop (lexeme (c :: cs)).length, d.toNat < 128 :=
      fun d hd => hcs d (List.mem_of_mem_drop hd)
    have hwritten := Written.token hcanonical (ih hrest)
      fun u hu hgap => exists_isBlank_of_needsGap hc hsplit hu hgap
    rwa [Token.ofLexeme, String.toList_ofList, hsplit] at hwritten

/-- The tokens with which a text is written are its tokens, and every ASCII text is written with
its tokens. -/
theorem tokenize_written (file : Option String) :
    (∀ (ts : List Token) (s : String), Written ts s.toList →
        tokenize s file = ts ++ [.endOfText]) ∧
      ∀ s : String, (∀ c ∈ s.toList, c.toNat < 128) →
        ∃ ts, tokenize s file = ts ++ [.endOfText] ∧ (∀ t ∈ ts, Canonical t) ∧
          Written ts s.toList := by
  constructor
  · intro ts s h
    rw [tokenize_eq, octets_of_forall_lt h.toNat_lt, h.map_token_scan]
  · intro s hs
    have hwritten := written_scan hs 0
    refine ⟨_, tokenize_eq s file, ?_⟩
    rw [octets_of_forall_lt hs]
    exact ⟨hwritten.canonical, hwritten⟩

/-- A name may follow a number at once and `=` the pair `==`; a blank keeps two names apart. -/
theorem tokenize_written_touching :
    let ts : List Token := [⟨.int, "5"⟩, ⟨.ident, "five"⟩, ⟨.ident, "x"⟩, ⟨.eq, "=="⟩, ⟨.assign, "="⟩]
    Written ts "5five x===".toList ∧ tokenize "5five x===" none = ts ++ [.endOfText] ∧
      (∀ c ∈ "\t@ 5".toList, c.toNat < 128) ∧
      ∃ us, tokenize "\t@ 5" none = us ++ [.endOfText] ∧ ∀ t ∈ us, Canonical t := by
  intro ts
  have hwritten : Written ts ("5".toList ++ ("five".toList ++ ' ' :: ("x".toList ++
      ("==".toList ++ ("=".toList ++ []))))) := by
    refine .token (t := ⟨.int, "5"⟩) (.regular (.number (by decide) (by simp))) ?_ (by decide)
    refine .token (t := ⟨.ident, "five"⟩) (.regular (.ident (by decide))) ?_
      fun _ _ _ => ⟨' ', rfl, rfl⟩
    refine .blank (by decide) ?_
    refine .token (t := ⟨.ident, "x"⟩) (.regular (.ident (by decide))) ?_ (by decide)
    refine .token (t := ⟨.eq, "=="⟩) (.regular (.fixed .eq)) ?_ (by decide)
    exact .token (t := ⟨.assign, "="⟩) (.regular (.fixed .assign)) .nil (by decide)
  have hascii : ∀ c ∈ "\t@ 5".toList, c.toNat < 128 := by simp
  obtain ⟨hread, hconverse⟩ := tokenize_written none
  obtain ⟨us, hus, hcanonical, -⟩ := hconverse "\t@ 5" hascii
  exact ⟨hwritten, hread ts "5five x===" hwritten, hascii, us, hus, hcanonical⟩

end MonkeyLang
