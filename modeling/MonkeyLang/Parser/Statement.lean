import MonkeyLang.Node.Basic
import MonkeyLang.Parser.Basic

/-!
# Parsing statements

A statement is parsed by the rule for its first token, the current token of the parser. Without a
rule a semicolon is an empty statement and any other token a fault. A parsed statement leaves the
parser on its last token; a fault leaves it where the fault was found, with the faulty token
still to come or current.
-/

namespace MonkeyLang

namespace Parser

/-- Moves to the end of the statement. -/
def skipToEnd (p : Parser) : Parser :=
  if p.atStatementEnd then p else p.advance.skipToEnd
termination_by p.remaining
decreasing_by
  refine remaining_advance_lt fun heof => ?_
  simp_all [atStatementEnd]

/-- Parses a `let` statement whose word is the current token: a name and `=` have to follow, and
the value, which is not kept, runs to the end of the statement. -/
def parseLet (p : Parser) : Except Diagnostic Node × Parser :=
  match p.expect .ident with
  | (.error d, p₁) => (.error d, p₁)
  | (.ok name, p₁) =>
    match p₁.expect .assign with
    | (.error d, p₂) => (.error d, p₂)
    | (.ok _, p₂) =>
      (.ok (.letStatement p.current.token (.ofToken name) none), p₂.skipToEnd)

end Parser

/-- Parses the statement that starts at the current token. -/
def StatementRule.parse (rule : StatementRule) (p : Parser) : Except Diagnostic Node × Parser :=
  match rule with
  | letStatement => p.parseLet
  | identifier => (.ok (.identifier (.ofToken p.current.token)), p)
  | integer =>
    ((IntegerLiteral.ofToken p.current.token (p.positionOf p.current)).map Node.integer, p)

namespace Parser

/-- Parses the statement at the current token; an empty statement is no node. -/
def parseStatement (p : Parser) : Except Diagnostic (Option Node) × Parser :=
  match p.table p.current.kind with
  | some rule => ((rule.parse p).1.map some, (rule.parse p).2)
  | none =>
    if p.current.kind = .semicolon then
      (.ok none, p)
    else
      (.error ⟨.unrecognisedStatement p.current.token, p.positionOf p.current⟩, p)

/-! ### Parsing a statement ends -/

theorem snd_expect (p : Parser) (kind : TokenKind) :
    (p.expect kind).2 = p ∨ (p.expect kind).2 = p.advance := by
  unfold expect
  split
  · exact .inr rfl
  · exact .inl rfl

theorem remaining_expect_le (p : Parser) (kind : TokenKind) :
    (p.expect kind).2.remaining ≤ p.remaining := by
  obtain h | h := p.snd_expect kind
  · exact Nat.le_of_eq (congrArg remaining h)
  · rw [h]
    exact p.remaining_advance_le

theorem remaining_skipToEnd_le (p : Parser) : p.skipToEnd.remaining ≤ p.remaining := by
  fun_induction skipToEnd p with
  | case1 => exact Nat.le_refl _
  | case2 p _ ih => exact Nat.le_trans ih p.remaining_advance_le

/-- Parsing a `let` statement leaves the parser as it is or with less left. -/
theorem parseLet_eq_or_remaining_lt {p : Parser} (h : p.current.kind ≠ .eof) :
    p.parseLet.2 = p ∨ p.parseLet.2.remaining < p.remaining := by
  have hlt := remaining_advance_lt h
  unfold parseLet
  split
  · rename_i d p₁ hname
    have hp₁ : (p.expect .ident).2 = p₁ := by rw [hname]
    obtain hstay | hmove := p.snd_expect .ident
    · exact .inl (hp₁ ▸ hstay)
    · right
      rw [← hp₁, hmove]
      exact hlt
  · rename_i name p₁ hname
    have hp₁ : p₁ = p.advance := by
      unfold expect at hname
      split at hname
      · exact (Prod.mk.inj hname).2.symm
      · simp at hname
    have hassign := p₁.remaining_expect_le .assign
    right
    split
    · rename_i d p₂ hp₂
      rw [hp₂, hp₁] at hassign
      exact Nat.lt_of_le_of_lt hassign hlt
    · rename_i t p₂ hp₂
      rw [hp₂, hp₁] at hassign
      exact Nat.lt_of_le_of_lt (Nat.le_trans p₂.remaining_skipToEnd_le hassign) hlt

/-- Parsing a statement leaves the parser as it is or with less left. -/
theorem parseStatement_eq_or_remaining_lt {p : Parser} (h : p.current.kind ≠ .eof) :
    p.parseStatement.2 = p ∨ p.parseStatement.2.remaining < p.remaining := by
  unfold parseStatement
  split
  · rename_i rule _
    cases rule with
    | letStatement => exact parseLet_eq_or_remaining_lt h
    | identifier => exact .inl rfl
    | integer => exact .inl rfl
  · split <;> exact .inl rfl

/-- One token behind a statement a parser has less left than in front of it. -/
theorem remaining_advance_parseStatement_lt {p : Parser} (h : p.current.kind ≠ .eof) :
    p.parseStatement.2.advance.remaining < p.remaining := by
  obtain hstay | hlt := parseStatement_eq_or_remaining_lt h
  · rw [hstay]
    exact remaining_advance_lt h
  · exact Nat.lt_of_le_of_lt (remaining_advance_le _) hlt

end Parser

end MonkeyLang
