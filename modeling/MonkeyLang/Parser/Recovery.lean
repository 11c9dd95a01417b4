import MonkeyLang.Parser.Statement
import MonkeyLang.Program

/-!
# Parsing programs

A program is parsed statement by statement to the end of the text. A fault does not stop it: the
fault is recorded, and parsing resumes at the next token that starts a statement, or behind the
next semicolon if that comes first. So one run gives every statement that could be parsed and
every fault that was met.
-/

namespace MonkeyLang

namespace Parser

/-- Moves to the first token that starts or ends a statement. -/
def skipToStatement (p : Parser) : Parser :=
  if p.atStatement || p.atStatementEnd then p else p.advance.skipToStatement
termination_by p.remaining
decreasing_by
  refine remaining_advance_lt fun heof => ?_
  simp_all [atStatementEnd]

/-- Resumes after a fault. The current token is given up, even if it starts a statement. -/
def recover (p : Parser) : Parser :=
  let q := p.advance.skipToStatement
  if q.atStatement then q else q.advance

theorem remaining_skipToStatement_le (p : Parser) :
    p.skipToStatement.remaining ≤ p.remaining := by
  fun_induction skipToStatement p with
  | case1 => exact Nat.le_refl _
  | case2 p _ ih => exact Nat.le_trans ih p.remaining_advance_le

theorem remaining_recover_le (p : Parser) : p.recover.remaining ≤ p.advance.remaining := by
  have hskip := p.advance.remaining_skipToStatement_le
  unfold recover
  dsimp only
  split
  · exact hskip
  · exact Nat.le_trans (remaining_advance_le _) hskip

theorem remaining_recover_parseStatement_lt {p : Parser} (h : p.current.kind ≠ .eof)
    (d : Diagnostic) : (p.parseStatement.2.record d).recover.remaining < p.remaining :=
  Nat.lt_of_le_of_lt (remaining_recover_le _) (remaining_advance_parseStatement_lt h)

/-- Parses the statements from the current token to the end of the text. -/
def parseStatements (p : Parser) : List Node × Parser :=
  if p.current.kind = .eof then
    ([], p)
  else
    match p.parseStatement.1 with
    | .ok node? =>
      let later := p.parseStatement.2.advance.parseStatements
      (node?.toList ++ later.1, later.2)
    | .error d => (p.parseStatement.2.record d).recover.parseStatements
termination_by p.remaining
decreasing_by
  · exact remaining_advance_parseStatement_lt ‹_›
  · exact remaining_recover_parseStatement_lt ‹_› d

/-- Parses the program from the current token to the end of the text. -/
def parseProgram (p : Parser) : Program × Parser :=
  (⟨p.parseStatements.1⟩, p.parseStatements.2)

end Parser

/-- The program of a source text, and the diagnostics on it in source order. -/
def parse (source : String) (file : Option String) : Program × Array Diagnostic :=
  let result := (Parser.ofCursor (.ofSource source file)).parseProgram
  (result.1, result.2.diagnostics)

end MonkeyLang
