import Mathlib.Data.List.TakeWhile
import MonkeyLang.Token.Lexeme

/-!
# The lexemes of words, numbers and symbols

What a lexeme and its token are, by the class of the first character. The classes do not overlap,
and none of the characters behind the first is a blank.
-/

namespace MonkeyLang

open Text

/-! ### Classes of characters -/

theorem not_isBlank_iff (c : Char) :
    ¬ isBlank c ↔ c ≠ ' ' ∧ c ≠ '\t' ∧ c ≠ '\n' ∧ c ≠ '\r' := by
  simp [isBlank, and_assoc]

theorem not_isBlank_of_isWordChar {c : Char} (h : isWordChar c) : ¬ isBlank c := by
  intro hblank
  simp only [isBlank, Bool.or_eq_true, decide_eq_true_eq] at hblank
  obtain ((rfl | rfl) | rfl) | rfl := hblank <;> exact absurd h (by decide)

theorem isWordChar_of_isLetter {c : Char} (h : isLetter c) : isWordChar c := by
  rw [isWordChar, h, Bool.true_or]

theorem isWordChar_of_isDigit {c : Char} (h : c.isDigit) : isWordChar c := by
  rw [isWordChar, h, Bool.or_true]

/-- The codes of letters. -/
theorem isLetter_iff {c : Char} :
    isLetter c ↔ 65 ≤ c.toNat ∧ c.toNat ≤ 90 ∨ 97 ≤ c.toNat ∧ c.toNat ≤ 122 ∨ c = '_' := by
  have hupper : c.isUpper ↔ 65 ≤ c.toNat ∧ c.toNat ≤ 90 := decide_eq_true_iff
  have hlower : c.isLower ↔ 97 ≤ c.toNat ∧ c.toNat ≤ 122 :=
    Bool.and_eq_true_iff.trans (and_congr decide_eq_true_iff decide_eq_true_iff)
  have halpha : c.isAlpha = (c.isUpper || c.isLower) := rfl
  rw [isLetter, halpha, Bool.or_eq_true, Bool.or_eq_true, hupper, hlower, decide_eq_true_iff,
    or_assoc]

/-- Words and numbers are ASCII. -/
theorem toNat_lt_of_isWordChar {c : Char} (h : isWordChar c) : c.toNat < 128 := by
  rw [isWordChar, Bool.or_eq_true, isLetter_iff, Char.isDigit_iff_toNat] at h
  obtain (⟨-, hle⟩ | ⟨-, hle⟩ | rfl) | ⟨-, hle⟩ := h
  · exact Nat.lt_of_le_of_lt hle (by decide)
  · exact Nat.lt_of_le_of_lt hle (by decide)
  · decide
  · exact Nat.lt_of_le_of_lt hle (by decide)

theorem not_isLetter_of_isDigit {c : Char} (h : c.isDigit) : ¬ isLetter c := by
  rw [isLetter_iff]
  have hdigit : c.toNat ≤ 57 := (Char.isDigit_iff_toNat.1 h).2
  rintro (⟨hlow, -⟩ | ⟨hlow, -⟩ | rfl)
  · exact absurd (Nat.le_trans hlow hdigit) (by decide)
  · exact absurd (Nat.le_trans hlow hdigit) (by decide)
  · exact absurd hdigit (by decide)

/-! ### The characters of a lexeme -/

theorem mem_lexeme_cons {c d : Char} {cs : List Char} (h : d ∈ lexeme (c :: cs)) :
    d = c ∨ isWordChar d ∨ d = '=' := by
  simp only [lexeme] at h
  split at h
  · exact (List.mem_cons.1 h).imp_right fun hd => .inl (List.mem_takeWhile_imp hd)
  · split at h
    · refine (List.mem_cons.1 h).imp_right fun hd => .inl ?_
      exact isWordChar_of_isDigit (List.mem_takeWhile_imp (p := Char.isDigit) hd)
    · split at h
      · exact (List.mem_cons.1 h).imp_right fun hd => .inr (List.mem_singleton.1 hd)
      · exact .inl (List.mem_singleton.1 h)

/-- A lexeme that does not begin with a blank holds none. -/
theorem not_isBlank_of_mem_lexeme {c d : Char} {cs : List Char} (hc : ¬ isBlank c)
    (hd : d ∈ lexeme (c :: cs)) : ¬ isBlank d := by
  obtain rfl | hword | rfl := mem_lexeme_cons hd
  · exact hc
  · exact not_isBlank_of_isWordChar hword
  · decide

/-! ### The kind of a lexeme -/

namespace TokenKind

theorem ofLexeme_cons_of_isLetter {c : Char} (hc : isLetter c) (cs : List Char) :
    ofLexeme (c :: cs) = ofWord (String.ofList (c :: cs)) := by
  have heq : c ≠ '=' := by rintro rfl; exact absurd hc (by decide)
  have hbang : c ≠ '!' := by rintro rfl; exact absurd hc (by decide)
  simp [ofLexeme, heq, hbang, hc]

theorem ofLexeme_cons_of_isDigit {c : Char} (hc : c.isDigit) (cs : List Char) :
    ofLexeme (c :: cs) = int := by
  have heq : c ≠ '=' := by rintro rfl; exact absurd hc (by decide)
  have hbang : c ≠ '!' := by rintro rfl; exact absurd hc (by decide)
  simp [ofLexeme, heq, hbang, not_isLetter_of_isDigit hc, hc]

theorem ofLexeme_singleton {c : Char} (hletter : ¬ isLetter c) (hdigit : ¬ c.isDigit) :
    ofLexeme [c] = ofSymbol c := by
  simp [ofLexeme, hletter, hdigit]

end TokenKind

/-! ### The first token of a text -/

theorem lexeme_of_isLetter {c : Char} (hc : isLetter c) (cs : List Char) :
    lexeme (c :: cs) = (c :: cs).takeWhile isWordChar := by
  rw [lexeme, if_pos hc, List.takeWhile_cons_of_pos (isWordChar_of_isLetter hc)]

theorem lexeme_of_isDigit {c : Char} (hc : c.isDigit) (cs : List Char) :
    lexeme (c :: cs) = (c :: cs).takeWhile Char.isDigit := by
  rw [lexeme, if_neg (not_isLetter_of_isDigit hc), if_pos hc, List.takeWhile_cons_of_pos hc]

theorem lexeme_of_not_isPairHead {c : Char} (hletter : ¬ isLetter c) (hdigit : ¬ c.isDigit)
    (hpair : ¬ isPairHead c) (cs : List Char) : lexeme (c :: cs) = [c] := by
  rw [lexeme, if_neg hletter, if_neg hdigit, if_neg fun h => hpair h.1]

/-- A letter begins a word, the longest that there is. -/
theorem ofLexeme_lexeme_of_isLetter {c : Char} (hc : isLetter c) (cs : List Char) :
    Token.ofLexeme (lexeme (c :: cs)) =
      ⟨.ofWord (String.ofList ((c :: cs).takeWhile isWordChar)),
        String.ofList ((c :: cs).takeWhile isWordChar)⟩ := by
  rw [lexeme_of_isLetter hc, List.takeWhile_cons_of_pos (isWordChar_of_isLetter hc),
    Token.ofLexeme, TokenKind.ofLexeme_cons_of_isLetter hc]

theorem ofLexeme_lexeme_of_isDigit {c : Char} (hc : c.isDigit) (cs : List Char) :
    Token.ofLexeme (lexeme (c :: cs)) =
      ⟨.int, String.ofList ((c :: cs).takeWhile Char.isDigit)⟩ := by
  rw [lexeme_of_isDigit hc, List.takeWhile_cons_of_pos hc, Token.ofLexeme,
    TokenKind.ofLexeme_cons_of_isDigit hc]

theorem lexeme_of_isPairHead {c : Char} (hc : isPairHead c) (cs : List Char) :
    lexeme (c :: cs) = if cs.head? = some '=' then [c, '='] else [c] := by
  have hpair : c = '=' ∨ c = '!' := by simpa [isPairHead] using hc
  have hletter : ¬ isLetter c := by obtain rfl | rfl := hpair <;> decide
  have hdigit : ¬ c.isDigit := by obtain rfl | rfl := hpair <;> decide
  rw [lexeme, if_neg hletter, if_neg hdigit]
  simp [hc]

/-- A character that begins neither a word, a number nor a pair is a token by itself. -/
theorem ofLexeme_lexeme_of_not_isPairHead {c : Char} (hletter : ¬ isLetter c)
    (hdigit : ¬ c.isDigit) (hpair : ¬ isPairHead c) (cs : List Char) :
    Token.ofLexeme (lexeme (c :: cs)) = ⟨.ofSymbol c, String.ofList [c]⟩ := by
  rw [lexeme_of_not_isPairHead hletter hdigit hpair, Token.ofLexeme,
    TokenKind.ofLexeme_singleton hletter hdigit]

end MonkeyLang
