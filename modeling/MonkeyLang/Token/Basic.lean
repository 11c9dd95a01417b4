import MonkeyLang.Token.Kind

/-!
# Tokens

A token is a kind together with the piece of source text it was made from. Most kinds fix that
piece; identifiers, integers and illegal characters carry it as a payload, and their printed form
shows it in parentheses.
-/

namespace MonkeyLang

structure Token where
  kind : TokenKind
  literal : String
deriving DecidableEq, Repr

/-- A token and the offset of its first octet. -/
structure LocatedToken where
  token : Token
  offset : Nat
deriving DecidableEq, Repr

/-- Whether the literals of a kind say more than the kind itself. -/
def TokenKind.hasPayload (kind : TokenKind) : Bool :=
  kind = .ident || kind = .int || kind = .illegal

namespace Token

/-- The token that stands for the end of a text. -/
def endOfText : Token :=
  ⟨.eof, ""⟩

/-- The printed form of a token. -/
def display (t : Token) : String :=
  if t.kind.hasPayload then t.kind.name ++ "(" ++ t.literal ++ ")" else t.kind.name

end Token

/-- The kind of a located token. -/
abbrev LocatedToken.kind (t : LocatedToken) : TokenKind :=
  t.token.kind

end MonkeyLang
