import MonkeyLang.Diagnostic.Basic
import MonkeyLang.Token.Cursor

/-!
# Parsers

A parser looks at two consecutive tokens of a source text, the current one and the next one, and
holds a cursor behind them. Advancing moves both by one token; at the end of the text they stay
at its end. Which kinds of token start a statement, and how that statement is parsed, is a
table that can be extended while parsing. The diagnostics recorded so far are kept in order.

Advancing ends: a parser whose current token is not the end of the text has less left after it
(`remaining_advance_lt`).
-/

namespace MonkeyLang

/-- The ways to parse a statement. -/
inductive StatementRule
  /-- A name, `=` and a value up to the semicolon follow the current token. -/
  | letStatement
  /-- The current token is an identifier, alone. -/
  | identifier
  /-- The current token is an integer, alone. -/
  | integer
deriving DecidableEq, Repr

/-- The rules for the kinds of token that start a statement. -/
abbrev StatementTable :=
  TokenKind → Option StatementRule

namespace StatementTable

/-- The table of the language: only `let` starts a statement. -/
def standard : StatementTable
  | .letWord => some .letStatement
  | _ => none

/-- Adds a rule for a kind in place of any it has. -/
def insert (table : StatementTable) (kind : TokenKind) (rule : StatementRule) : StatementTable :=
  fun k => if k = kind then some rule else table k

/-- The kinds that start a statement, in increasing order of names. -/
def kinds (table : StatementTable) : List TokenKind :=
  TokenKind.all.filter fun kind => (table kind).isSome

end StatementTable

structure Parser where
  cursor : Cursor
  current : LocatedToken
  peek : LocatedToken
  table : StatementTable
  diagnostics : Array Diagnostic

namespace Parser

/-- Moves to the next token. -/
def advance (p : Parser) : Parser :=
  { p with
    cursor := p.cursor.next.2
    current := p.peek
    peek := ⟨p.cursor.next.1, p.cursor.next.2.tokenStart⟩ }

/-- The parser at the first token from a cursor on. -/
def ofCursor (c : Cursor) : Parser :=
  let start := ⟨.endOfText, 0⟩
  (Parser.mk c start start .standard #[]).advance.advance

/-- The name under which positions are reported. -/
def file (p : Parser) : String :=
  p.cursor.file

/-- The position of a token that the parser looks at. -/
def positionOf (p : Parser) (t : LocatedToken) : Position :=
  ⟨UInt32.ofNat t.offset, p.file⟩

/-- Sets the rule for the statements that start with a kind of token. -/
def register (p : Parser) (kind : TokenKind) (rule : StatementRule) : Parser :=
  { p with table := p.table.insert kind rule }

/-- Whether the current token starts a statement. -/
def atStatement (p : Parser) : Bool :=
  (p.table p.current.kind).isSome

/-- Whether the current token ends a statement: a semicolon or the end of the text. -/
def atStatementEnd (p : Parser) : Bool :=
  p.current.kind = .semicolon || p.current.kind = .eof

/-- Records a diagnostic. -/
def record (p : Parser) (d : Diagnostic) : Parser :=
  { p with diagnostics := p.diagnostics.push d }

/-- Moves to the next token if it has the expected kind, and otherwise stays. -/
def expect (p : Parser) (kind : TokenKind) : Except Diagnostic Token × Parser :=
  if p.peek.kind = kind then
    (.ok p.peek.token, p.advance)
  else
    (.error ⟨.unexpectedToken kind p.peek.token, p.positionOf p.peek⟩, p)

/-! ### Advancing ends -/

/-- One for a token that is not the end of the text. -/
def weight (t : LocatedToken) : Nat :=
  if t.kind = .eof then 0 else 1

/-- A bound on the tokens before the end of the text, the current one included. -/
def remaining (p : Parser) : Nat :=
  weight p.current + weight p.peek + p.cursor.rest.length

theorem weight_pos {t : LocatedToken} (h : t.kind ≠ .eof) : 0 < weight t := by
  simp [weight, h]

theorem weight_add_length_rest_next_le (c : Cursor) (start : Nat) :
    weight ⟨c.next.1, start⟩ + c.next.2.rest.length ≤ c.rest.length := by
  by_cases h : c.next.1.kind = .eof
  · have := c.length_rest_next_le
    simp only [weight, LocatedToken.kind, h, if_true]
    omega
  · have := Cursor.length_rest_next_lt h
    simp only [weight, LocatedToken.kind, h, if_false]
    omega

theorem remaining_advance_add_weight_le (p : Parser) :
    p.advance.remaining + weight p.current ≤ p.remaining := by
  have := weight_add_length_rest_next_le p.cursor p.cursor.next.2.tokenStart
  simp only [remaining, advance]
  omega

theorem remaining_advance_le (p : Parser) : p.advance.remaining ≤ p.remaining := by
  have := p.remaining_advance_add_weight_le
  omega

/-- A parser that is not at the end of the text has less left after advancing. -/
theorem remaining_advance_lt {p : Parser} (h : p.current.kind ≠ .eof) :
    p.advance.remaining < p.remaining := by
  have := p.remaining_advance_add_weight_le
  have := weight_pos h
  omega

end Parser

end MonkeyLang
