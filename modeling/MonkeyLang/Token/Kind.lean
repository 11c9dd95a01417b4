/-!
# Kinds of token

The vocabulary of the language. Each kind has one name, under which it is printed and reported,
and no two kinds share a name. Seven words are reserved; the other words are identifiers. A
symbol of one character has a kind of its own, and a character that begins no token is illegal.
-/

namespace MonkeyLang

inductive TokenKind
  | illegal
  | eof
  | ident
  | int
  | assign
  | plus
  | minus
  | slash
  | asterisk
  | gt
  | lt
  | bang
  | eq
  | notEq
  | comma
  | semicolon
  | lparen
  | rparen
  | lbrace
  | rbrace
  | fnWord
  | letWord
  | returnWord
  | ifWord
  | elseWord
  | trueWord
  | falseWord
deriving DecidableEq, Repr

namespace TokenKind

/-- The name under which a kind is printed and reported. -/
def name : TokenKind → String
  | illegal => "ILLEGAL"
  | eof => "EOF"
  | ident => "IDENT"
  | int => "INT"
  | assign => "="
  | plus => "+"
  | minus => "-"
  | slash => "/"
  | asterisk => "*"
  | gt => ">"
  | lt => "<"
  | bang => "!"
  | eq => "=="
  | notEq => "!="
  | comma => ","
  | semicolon => ";"
  | lparen => "("
  | rparen => ")"
  | lbrace => "\x7b"
  | rbrace => "\x7d"
  | fnWord => "FUNCTION"
  | letWord => "LET"
  | returnWord => "RETURN"
  | ifWord => "IF"
  | elseWord => "ELSE"
  | trueWord => "TRUE"
  | falseWord => "FALSE"

/-- Every kind, in increasing order of names. -/
def all : List TokenKind :=
  [bang, notEq, lparen, rparen, asterisk, plus, comma, minus, slash, semicolon, lt, assign, eq,
   gt, elseWord, eof, falseWord, fnWord, ident, ifWord, illegal, int, letWord, returnWord,
   trueWord, lbrace, rbrace]

/-- The kind with the given name. -/
def ofName? (s : String) : Option TokenKind :=
  all.find? fun kind => kind.name = s

/-- The reserved words. -/
def keywords : List (String × TokenKind) :=
  [("fn", fnWord), ("let", letWord), ("return", returnWord), ("if", ifWord), ("else", elseWord),
   ("true", trueWord), ("false", falseWord)]

/-- The kind of a word: its own when the word is reserved, otherwise an identifier. -/
def ofWord (word : String) : TokenKind :=
  (keywords.lookup word).getD ident

/-- The symbols of one character. -/
def symbols : List (Char × TokenKind) :=
  [('=', assign), ('+', plus), ('-', minus), ('/', slash), ('*', asterisk), ('>', gt), ('<', lt),
   ('!', bang), (',', comma), (';', semicolon), ('(', lparen), (')', rparen), ('{', lbrace),
   ('}', rbrace)]

/-- The kind of a character that stands alone as a token. -/
def ofSymbol (c : Char) : TokenKind :=
  (symbols.lookup c).getD illegal

theorem mem_all (kind : TokenKind) : kind ∈ all := by
  cases kind <;> decide

theorem pairwise_name_all : all.Pairwise fun a b => a.name < b.name := by
  decide

theorem ofName?_name (kind : TokenKind) : ofName? kind.name = some kind := by
  cases kind <;> decide

/-- No two kinds share a name. -/
theorem name_injective {a b : TokenKind} (h : a.name = b.name) : a = b := by
  have hb := ofName?_name b
  rw [← h, ofName?_name a] at hb
  exact Option.some.inj hb

theorem mem_of_lookup_eq_some {α β : Type} [BEq α] [LawfulBEq α] {a : α} {b : β} :
    ∀ {l : List (α × β)}, l.lookup a = some b → (a, b) ∈ l
  | (a', b') :: l, h => by
    rw [List.lookup_cons] at h
    split at h
    · simp_all
    · exact List.mem_cons_of_mem _ (mem_of_lookup_eq_some h)

theorem ofWord_ne_eof (word : String) : ofWord word ≠ eof := by
  have reserved : ∀ entry ∈ keywords, entry.2 ≠ eof := by decide
  unfold ofWord
  cases h : keywords.lookup word with
  | none => decide
  | some kind => exact reserved _ (mem_of_lookup_eq_some h)

theorem ofSymbol_ne_eof (c : Char) : ofSymbol c ≠ eof := by
  have symbol : ∀ entry ∈ symbols, entry.2 ≠ eof := by decide
  unfold ofSymbol
  cases h : symbols.lookup c with
  | none => decide
  | some kind => exact symbol _ (mem_of_lookup_eq_some h)

end TokenKind

end MonkeyLang
