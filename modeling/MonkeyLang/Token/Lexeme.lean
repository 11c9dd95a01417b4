import MonkeyLang.Text.Blank
import MonkeyLang.Token.Basic

/-!
# Lexemes

The lexeme at the front of a text is the longest piece that is one token: a word of letters,
digits and underscores that begins with no digit, a run of digits, one of the pairs `==` and
`!=`, or else a single character. Its kind depends on the lexeme alone. Letters and digits are
ASCII, and a text that starts with a blank has the blank as its lexeme, so blanks are skipped
first.
-/

namespace MonkeyLang

open Text

/-- The characters that begin a word. -/
def isLetter (c : Char) : Bool :=
  c.isAlpha || c = '_'

/-- The characters that continue a word. -/
def isWordChar (c : Char) : Bool :=
  isLetter c || c.isDigit

/-- The characters that `=` extends to a pair. -/
def isPairHead (c : Char) : Bool :=
  c = '=' || c = '!'

/-- The piece at the front of a text that makes its first token. -/
def lexeme : List Char → List Char
  | [] => []
  | c :: rest =>
    if isLetter c then c :: rest.takeWhile isWordChar
    else if c.isDigit then c :: rest.takeWhile Char.isDigit
    else if isPairHead c ∧ rest.head? = some '=' then [c, '=']
    else [c]

/-- The kind of a lexeme; nothing is left at the end of a text. -/
def TokenKind.ofLexeme : List Char → TokenKind
  | [] => eof
  | ['=', '='] => eq
  | ['!', '='] => notEq
  | c :: rest =>
    if isLetter c then ofWord (String.ofList (c :: rest))
    else if c.isDigit then int
    else ofSymbol c

/-- The token that a lexeme makes. -/
def Token.ofLexeme (cs : List Char) : Token :=
  ⟨.ofLexeme cs, String.ofList cs⟩

@[simp]
theorem lexeme_nil : lexeme [] = [] := rfl

theorem lexeme_cons_ne_nil (c : Char) (rest : List Char) : lexeme (c :: rest) ≠ [] := by
  simp only [lexeme]
  split
  · exact List.cons_ne_nil _ _
  · split
    · exact List.cons_ne_nil _ _
    · split <;> exact List.cons_ne_nil _ _

/-- A lexeme is a piece from the front of its text. -/
theorem lexeme_prefix_self (cs : List Char) : lexeme cs <+: cs := by
  cases cs with
  | nil => exact List.prefix_refl _
  | cons c rest =>
    simp only [lexeme]
    split
    · exact (List.prefix_cons_inj c).2 (List.takeWhile_prefix _)
    · split
      · exact (List.prefix_cons_inj c).2 (List.takeWhile_prefix _)
      · split
        · rename_i h
          obtain ⟨r, rfl⟩ : ∃ r, rest = '=' :: r := List.head?_eq_some_iff.1 h.2
          exact ⟨r, rfl⟩
        · exact ⟨rest, rfl⟩

theorem length_lexeme_le (cs : List Char) : (lexeme cs).length ≤ cs.length :=
  (lexeme_prefix_self cs).length_le

namespace TokenKind

/-- Only the empty lexeme ends a text. -/
theorem ofLexeme_eq_eof_iff (cs : List Char) : ofLexeme cs = eof ↔ cs = [] := by
  unfold ofLexeme
  split
  · simp
  · simp
  · simp
  · split
    · simp [ofWord_ne_eof]
    · split <;> simp [ofSymbol_ne_eof]

end TokenKind

end MonkeyLang
