/-!
# Blank characters

Two notions of blank are in use. The language skips space, tab, line feed and carriage return
between tokens. A quoted source line loses every character with the Unicode property
`White_Space` at its end, and only spaces and tabs at its start.
-/

namespace MonkeyLang.Text

/-- The characters skipped between tokens. -/
def isBlank (c : Char) : Bool :=
  c = ' ' || c = '\t' || c = '\n' || c = '\r'

/-- The characters dropped from the start of a quoted source line. -/
def isIndent (c : Char) : Bool :=
  c = ' ' || c = '\t'

/-- The inclusive ranges of the Unicode property `White_Space`. -/
def whiteSpaceRanges : List (Nat × Nat) :=
  [(0x9, 0xd), (0x20, 0x20), (0x85, 0x85), (0xa0, 0xa0), (0x1680, 0x1680), (0x2000, 0x200a),
   (0x2028, 0x2029), (0x202f, 0x202f), (0x205f, 0x205f), (0x3000, 0x3000)]

/-- The Unicode property `White_Space`. -/
def isWhiteSpace (c : Char) : Bool :=
  whiteSpaceRanges.any fun (first, last) => first ≤ c.toNat && c.toNat ≤ last

/-- Drops the white space at the end of a text. -/
def dropTrailingSpace (cs : List Char) : List Char :=
  (cs.reverse.dropWhile isWhiteSpace).reverse

end MonkeyLang.Text
