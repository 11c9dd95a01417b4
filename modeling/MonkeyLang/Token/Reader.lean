import MonkeyLang.Token.Cursor

/-!
# Readers

A reader goes through a source text one octet at a time. It holds the octet at hand and knows the
index of the one that it reads next, and it recognises a token by looking at no more than these
two. Words and numbers are cut out of the source between two offsets, and where the offsets divide
a character there is nothing to cut out: then there is no next token.

A cursor that has the octets in front of it as a list needs none of this; a reader hands out the
same tokens.
-/

namespace MonkeyLang

open Text

structure Reader where
  source : String
  /-- The name under which offsets into the source are reported. -/
  file : String
  /-- The index of the octet at hand. -/
  position : Nat
  /-- The index of the octet that is read next. -/
  readPosition : Nat
  /-- The octet at hand; past the end of the source there is none. -/
  octet : Option Char
  /-- The position of the token read last. -/
  tokenStart : Nat
deriving DecidableEq, Repr

namespace Reader

/-- The octet behind the one at hand. -/
def peek? (r : Reader) : Option Char :=
  (octets r.source)[r.readPosition]?

/-- Reads the next octet. -/
def readOctet (r : Reader) : Reader :=
  { r with
    position := r.readPosition
    readPosition := r.readPosition + 1
    octet := r.peek? }

/-- The reader at the first octet of a source text. -/
def ofSource (source : String) (file : Option String) : Reader :=
  (Reader.mk source (file.getD Cursor.defaultFile) 0 0 none 0).readOctet

/-- A bound on the octets left, the one at hand included. -/
def left (r : Reader) : Nat :=
  r.octet.toList.length + ((octets r.source).length - r.readPosition)

theorem left_readOctet_lt {r : Reader} (h : r.octet.isSome) : r.readOctet.left < r.left := by
  obtain ⟨c, hc⟩ := Option.isSome_iff_exists.1 h
  have hleft : r.left = 1 + ((octets r.source).length - r.readPosition) := by
    rw [left, hc]
    rfl
  rw [hleft, left, readOctet, peek?]
  dsimp only
  rcases Nat.lt_or_ge r.readPosition (octets r.source).length with hlt | hge
  · rw [List.getElem?_eq_getElem hlt, Option.toList_some, List.length_singleton]
    omega
  · rw [List.getElem?_eq_none hge, Option.toList_none, List.length_nil]
    omega

/-- Reads on as long as the octet at hand belongs to a class. -/
def readWhile (p : Char → Bool) (r : Reader) : Reader :=
  if r.octet.any p then r.readOctet.readWhile p else r
termination_by r.left
decreasing_by exact left_readOctet_lt (Option.isSome_of_any ‹_›)

/-- Moves over the blanks at hand. -/
def skipBlanks (r : Reader) : Reader :=
  r.readWhile isBlank

/-- Notes that a token starts at the octet at hand. -/
def markStart (r : Reader) : Reader :=
  { r with tokenStart := r.position }

/-- Cuts the octets of a class out of the source, from the one at hand on. -/
def cut? (p : Char → Bool) (r : Reader) : Option (String × Reader) :=
  (slice? r.source r.position (r.readWhile p).position).map fun text => (text, r.readWhile p)

/-- Reads the octet at hand, and with it an equals sign that follows. -/
def readPair (c : Char) (pair single : TokenKind) (r : Reader) : Token × Reader :=
  if r.peek? = some '=' then
    (⟨pair, String.ofList [c, '=']⟩, r.readOctet.readOctet)
  else
    (⟨single, String.ofList [c]⟩, r.readOctet)

/-- Reads the token that begins with the octet `c` at hand. -/
def readToken? (c : Char) (r : Reader) : Option (Token × Reader) :=
  if c = '=' then some (r.readPair c .eq .assign)
  else if c = '!' then some (r.readPair c .notEq .bang)
  else
    match TokenKind.symbols.lookup c with
    | some kind => some (⟨kind, String.ofList [c]⟩, r.readOctet)
    | none =>
      if isLetter c then
        (r.cut? isWordChar).map fun word => (⟨.ofWord word.1, word.1⟩, word.2)
      else if c.isDigit then
        (r.cut? Char.isDigit).map fun digits => (⟨.int, digits.1⟩, digits.2)
      else
        some (⟨.illegal, String.ofList [c]⟩, r.readOctet)

/-- Reads the next token. -/
def next? (r : Reader) : Option (Token × Reader) :=
  let start := r.skipBlanks.markStart
  match start.octet with
  | none => some (.endOfText, start)
  | some c => start.readToken? c

/-- Reads the next token as an item of a list, of which the end of the text is the end. -/
def nextItem? (r : Reader) : Option (Option Token × Reader) :=
  r.next?.map fun token =>
    (if token.1.kind = .eof then none else some token.1, token.2)

/-- Reads `n` tokens; the end of the text is read as often as it takes. -/
def tokens? : Nat → Reader → Option (List LocatedToken × Reader)
  | 0, r => some ([], r)
  | n + 1, r => do
    let token ← r.next?
    let later ← tokens? n token.2
    return (⟨token.1, token.2.tokenStart⟩ :: later.1, later.2)

end Reader

end MonkeyLang
