import MonkeyLang.Text.Octets
import MonkeyLang.Token.Lexeme

/-!
# Cursors

A cursor stands at an octet of a source text and hands out tokens. Reading a token skips blanks,
takes the lexeme that follows them and leaves the cursor just behind it; at the end of the text
the token is the end of the text, as often as it is asked for. A cursor may also be moved octet by
octet, even past the end, where its position keeps growing.

Reading ends: every token but the last leaves a shorter rest (`length_rest_next_lt`).
-/

namespace MonkeyLang

open Text

structure Cursor where
  source : String
  /-- The name under which offsets into the source are reported. -/
  file : String
  /-- The octets in front of the cursor, those moved over past the end included. -/
  position : Nat
  /-- The octets from the cursor to the end of the source. -/
  rest : List Char
  /-- The position of the token read last. -/
  tokenStart : Nat
deriving DecidableEq, Repr

namespace Cursor

/-- The name of a source without a file. -/
def defaultFile : String :=
  "shell"

/-- The cursor in front of a source text. -/
def ofSource (source : String) (file : Option String) : Cursor :=
  ⟨source, file.getD defaultFile, 0, octets source, 0⟩

/-- Moves over `n` octets. -/
def advance (c : Cursor) (n : Nat) : Cursor :=
  { c with position := c.position + n, rest := c.rest.drop n }

/-- The octet behind the one at the cursor. -/
def peek? (c : Cursor) : Option Char :=
  (c.rest.drop 1).head?

/-- Moves over the blanks at the cursor. -/
def skipBlanks (c : Cursor) : Cursor :=
  c.advance (c.rest.takeWhile isBlank).length

/-- Notes that a token starts at the cursor. -/
def markStart (c : Cursor) : Cursor :=
  { c with tokenStart := c.position }

/-- Reads the lexeme at the cursor. -/
def takeLexeme (c : Cursor) : Token × Cursor :=
  (Token.ofLexeme (lexeme c.rest), c.advance (lexeme c.rest).length)

/-- Reads the next token. -/
def next (c : Cursor) : Token × Cursor :=
  c.skipBlanks.markStart.takeLexeme

/-- Reads the next token, which is `none` at the end of the text. -/
def next? (c : Cursor) : Option Token × Cursor :=
  (if c.next.1.kind = .eof then none else some c.next.1, c.next.2)

/-! ### Reading ends -/

@[simp]
theorem length_rest_advance (c : Cursor) (n : Nat) :
    (c.advance n).rest.length = c.rest.length - n := by
  simp [advance]

theorem length_rest_skipBlanks_le (c : Cursor) :
    c.skipBlanks.rest.length ≤ c.rest.length := by
  simp [skipBlanks]

theorem length_rest_next_le (c : Cursor) : c.next.2.rest.length ≤ c.rest.length := by
  have := c.length_rest_skipBlanks_le
  simp only [next, takeLexeme, markStart, length_rest_advance]
  omega

/-- A token that is not the end of the text shortens the rest. -/
theorem length_rest_next_lt {c : Cursor} (h : c.next.1.kind ≠ .eof) :
    c.next.2.rest.length < c.rest.length := by
  have hskip := c.length_rest_skipBlanks_le
  have hle := length_lexeme_le c.skipBlanks.rest
  have hpos : 0 < (lexeme c.skipBlanks.rest).length := by
    refine List.length_pos_iff.2 fun hnil => h ?_
    exact (TokenKind.ofLexeme_eq_eof_iff _).2 hnil
  simp only [next, takeLexeme, markStart, length_rest_advance]
  omega

theorem length_rest_next?_lt {c : Cursor} (h : c.next?.1.isSome) :
    c.next?.2.rest.length < c.rest.length := by
  refine length_rest_next_lt fun heof => ?_
  simp [next?, heof] at h

/-! ### Reading to the end -/

/-- The tokens from the cursor on, with their offsets; the last is the end of the text. -/
def tokens (c : Cursor) : List LocatedToken :=
  let located := ⟨c.next.1, c.next.2.tokenStart⟩
  if c.next.1.kind = .eof then [located] else located :: c.next.2.tokens
termination_by c.rest.length
decreasing_by exact length_rest_next_lt ‹_›

/-- Reads until there is no next token: the tokens read, and the cursor behind them. -/
def drain (c : Cursor) : List Token × Cursor :=
  if h : c.next?.1.isSome then
    let later := c.next?.2.drain
    (c.next?.1.get h :: later.1, later.2)
  else
    ([], c.next?.2)
termination_by c.rest.length
decreasing_by exact length_rest_next?_lt h

end Cursor

/-- The tokens of a source text. The last one, and no other, is the end of the text. -/
def tokenize (source : String) (file : Option String) : List Token :=
  (Cursor.ofSource source file).tokens.map LocatedToken.token

end MonkeyLang
