import MonkeyLang.Text.Octets

/-!
# Lines of a text

A line runs through its line feed; what follows the last line feed, possibly nothing, is the
last line. So a text is never without a line, and its lines in order are the whole text.
`lineAt?` finds the line that holds an octet offset. The offset just past the text belongs to
the last line. `findLine?` finds the same lines by a search that keeps to the lines that are not
empty and looks for the last line from the end.
-/

namespace MonkeyLang.Text

/-- A place in a text: a line, counted from one, and the octets before the place on it. -/
structure Line where
  number : Nat
  text : String
  column : Nat
deriving DecidableEq, Repr

/-- Puts a character in front of the lines that follow it. -/
def consLine (c : Char) (ls : List (List Char)) : List (List Char) :=
  if c = '\n' then [c] :: ls else (c :: ls.headD []) :: ls.tail

/-- The lines of a text, each with the line feed that ends it. -/
def lines (cs : List Char) : List (List Char) :=
  cs.foldr consLine [[]]

/-- Looks for `offset` among lines of which the first has the given number. -/
def locate (number : Nat) : List (List Char) → Nat → Option Line
  | [], _ => none
  | [line], offset =>
    if offset ≤ width line then some ⟨number, String.ofList line, offset⟩ else none
  | line :: rest, offset =>
    if offset < width line then
      some ⟨number, String.ofList line, offset⟩
    else
      locate (number + 1) rest (offset - width line)

/-- The line that holds an octet offset, or `none` where the offset lies past the text. -/
def lineAt? (s : String) (offset : Nat) : Option Line :=
  locate 1 (lines s.toList) offset

@[simp]
theorem lines_nil : lines [] = [[]] := rfl

@[simp]
theorem lines_cons (c : Char) (cs : List Char) : lines (c :: cs) = consLine c (lines cs) := rfl

@[simp]
theorem flatten_consLine (c : Char) (ls : List (List Char)) :
    (consLine c ls).flatten = c :: ls.flatten := by
  cases ls <;> simp only [consLine] <;> split <;> simp

/-- The lines of a text, one after the other, are the text. -/
@[simp]
theorem flatten_lines (cs : List Char) : (lines cs).flatten = cs := by
  induction cs with
  | nil => rfl
  | cons c cs ih => simp [ih]

/-! ### Searching piece by piece -/

/-- The pieces that the line feeds of a text end, and what follows the last of them unless it is
empty. -/
def pieces (cs : List Char) : List (List Char) :=
  cs.foldr consLine []

/-- Looks for `offset` among pieces of which the first has the given start and number: the line of
the offset, or else the number behind the last piece. -/
def searchPieces (offset : Nat) : Nat → Nat → List (List Char) → Line ⊕ Nat
  | _, number, [] => .inr number
  | start, number, piece :: rest =>
    let stop := start + width piece
    if start ≤ offset ∧ offset < stop then
      .inl ⟨number, String.ofList piece, offset - start⟩
    else
      searchPieces offset stop (number + 1) rest

/-- What follows the last line feed of a text. -/
def behindLast? (cs : List Char) : Option (List Char) :=
  if '\n' ∈ cs then some (cs.reverse.takeWhile (· ≠ '\n')).reverse else none

/-- The line at the end of a text; the number is the one behind its last piece. -/
def endLine (number : Nat) (cs : List Char) : Line :=
  match behindLast? cs with
  | some [] => ⟨number, "", 0⟩
  | some last => ⟨number - 1, String.ofList last, width last⟩
  | none => ⟨1, String.ofList cs, width cs⟩

/-- Finds the line that holds an octet offset by going through the pieces of the text, and at the
end of the text by its last line feed. -/
def findLine? (s : String) (offset : Nat) : Option Line :=
  if s.utf8ByteSize < offset then none
  else
    match searchPieces offset 0 1 (pieces s.toList) with
    | .inl line => some line
    | .inr number => some (endLine number s.toList)

end MonkeyLang.Text
