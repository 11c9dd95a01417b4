import MonkeyLang.Proofs.Token.Munch
import MonkeyLang.Token.Reader

/-!
# Readers and cursors

A reader and a cursor at the same place of a source read the same token and come to the same place
again (`StandsIn.next?_reader`). In particular a reader always has a next token: the words and
numbers that it cuts out of the source are ASCII, so they begin and end where characters do
(`StandsIn.slice?_takeWhile`).
-/

namespace MonkeyLang

open Text

namespace Cursor

variable {source : String} {file : Option String} {c : Cursor} {p : Char → Bool}

/-- A cursor in a source: its rest is what the source has from its position on, and the token read
last does not start behind it. -/
structure StandsIn (c : Cursor) (source : String) (file : Option String) : Prop where
  source_eq : c.source = source
  file_eq : c.file = file.getD defaultFile
  rest_eq : c.rest = (octets source).drop c.position
  tokenStart_le : c.tokenStart ≤ c.position

/-- The reader at the place of a cursor. -/
def reader (c : Cursor) : Reader where
  source := c.source
  file := c.file
  position := c.position
  readPosition := c.position + 1
  octet := c.rest.head?
  tokenStart := c.tokenStart

theorem reader_ofSource (source : String) (file : Option String) :
    (ofSource source file).reader = .ofSource source file := by
  rw [reader, ofSource, Reader.ofSource, Reader.readOctet, Reader.peek?, List.head?_eq_getElem?]

theorem standsIn_ofSource (source : String) (file : Option String) :
    (ofSource source file).StandsIn source file :=
  ⟨rfl, rfl, rfl, Nat.le_refl 0⟩

theorem advance_advance (c : Cursor) (m n : Nat) : (c.advance m).advance n = c.advance (m + n) := by
  rw [advance, advance, advance, List.drop_drop, Nat.add_assoc]

namespace StandsIn

theorem advance (h : c.StandsIn source file) (n : Nat) : (c.advance n).StandsIn source file := by
  refine ⟨h.source_eq, h.file_eq, ?_, Nat.le_trans h.tokenStart_le (Nat.le_add_right _ n)⟩
  rw [Cursor.advance, h.rest_eq, List.drop_drop]

theorem start (h : c.StandsIn source file) : c.skipBlanks.markStart.StandsIn source file :=
  ⟨h.source_eq, h.file_eq, (h.advance _).rest_eq, Nat.le_refl _⟩

theorem next (h : c.StandsIn source file) : c.next.2.StandsIn source file :=
  h.start.advance _

/-! ### One token -/

theorem peek?_reader (h : c.StandsIn source file) : c.reader.peek? = c.peek? := by
  rw [Cursor.peek?, h.rest_eq, List.drop_drop, List.head?_drop, ← h.source_eq]
  rfl

theorem readOctet_reader (h : c.StandsIn source file) :
    c.reader.readOctet = (c.advance 1).reader := by
  rw [Reader.readOctet, h.peek?_reader]
  rfl

theorem readWhile_reader (h : c.StandsIn source file) (p : Char → Bool) :
    c.reader.readWhile p = (c.advance (c.rest.takeWhile p).length).reader := by
  induction hrest : c.rest generalizing c with
  | nil =>
    have hnone : c.reader.octet = none := by rw [reader, hrest, List.head?_nil]
    rw [Reader.readWhile, hnone]
    rfl
  | cons x cs ih =>
    have hsome : c.reader.octet = some x := by rw [reader, hrest, List.head?_cons]
    rw [Reader.readWhile, hsome, Option.any_some]
    by_cases hx : p x
    · have hbehind : (c.advance 1).rest = cs := by
        rw [Cursor.advance, hrest, List.drop_one, List.tail_cons]
      rw [if_pos hx, List.takeWhile_cons_of_pos hx, List.length_cons, h.readOctet_reader,
        ih (h.advance 1) hbehind, advance_advance, Nat.add_comm]
    · rw [if_neg hx, List.takeWhile_cons_of_neg hx]
      rfl

theorem start_reader (h : c.StandsIn source file) :
    c.reader.skipBlanks.markStart = c.skipBlanks.markStart.reader := by
  rw [Reader.skipBlanks, h.readWhile_reader]
  rfl

/-- Where the octets of a class are ASCII, they can be cut out. -/
theorem slice?_takeWhile (h : c.StandsIn source file) (hp : ∀ d, p d → isWordChar d)
    (hne : c.rest.takeWhile p ≠ []) :
    slice? source c.position (c.position + (c.rest.takeWhile p).length) =
      some (String.ofList (c.rest.takeWhile p)) := by
  have hsplit : octets source = (octets source).take c.position ++ c.rest.takeWhile p ++
      c.rest.dropWhile p := by
    rw [List.append_assoc, List.takeWhile_append_dropWhile, h.rest_eq, List.take_append_drop]
  have hlength : ((octets source).take c.position).length = c.position := by
    rw [List.length_take_of_le]
    by_contra hlt
    rw [h.rest_eq, List.drop_eq_nil_of_le (Nat.le_of_not_le hlt)] at hne
    exact hne rfl
  have hslice := slice?_of_octets_eq hsplit
    (fun d hd => toNat_lt_of_isWordChar (hp d (List.mem_takeWhile_imp hd))) hne
  rwa [hlength] at hslice

theorem cut?_reader (h : c.StandsIn source file) (hp : ∀ d, p d → isWordChar d)
    (hne : c.rest.takeWhile p ≠ []) :
    c.reader.cut? p = some (String.ofList (c.rest.takeWhile p),
      (c.advance (c.rest.takeWhile p).length).reader) := by
  have hslice := h.slice?_takeWhile hp hne
  rw [← h.source_eq] at hslice
  rw [Reader.cut?, h.readWhile_reader]
  exact congrArg (Option.map _) hslice

end StandsIn

theorem takeLexeme_eq {cs run : List Char} (hrest : c.rest = cs) (hrun : lexeme cs = run) :
    c.takeLexeme = (.ofLexeme run, c.advance run.length) := by
  rw [takeLexeme, hrest, hrun]

namespace StandsIn

variable {x : Char} {cs : List Char}

theorem readPair_reader (h : c.StandsIn source file) (hrest : c.rest = x :: cs)
    (hx : isPairHead x) (pair single : TokenKind) (hpair : TokenKind.ofLexeme [x, '='] = pair)
    (hsingle : TokenKind.ofLexeme [x] = single) :
    c.reader.readPair x pair single = (c.takeLexeme.1, c.takeLexeme.2.reader) := by
  have hpeek : c.reader.peek? = cs.head? := by
    rw [h.peek?_reader, Cursor.peek?, hrest, List.drop_one, List.tail_cons]
  rw [Reader.readPair, hpeek, h.readOctet_reader, takeLexeme_eq hrest (lexeme_of_isPairHead hx cs)]
  split
  · rw [(h.advance 1).readOctet_reader, advance_advance, Token.ofLexeme, hpair]
    rfl
  · rw [Token.ofLexeme, hsingle]
    rfl

/-- A character that begins neither a word, a number nor a pair is read by itself. -/
theorem takeLexeme_of_not_isPairHead (h : c.StandsIn source file) (hrest : c.rest = x :: cs)
    (hletter : ¬ isLetter x) (hdigit : ¬ x.isDigit) (hpair : ¬ isPairHead x) :
    (c.takeLexeme.1, c.takeLexeme.2.reader) =
      (⟨.ofSymbol x, String.ofList [x]⟩, c.reader.readOctet) := by
  rw [takeLexeme_eq hrest (lexeme_of_not_isPairHead hletter hdigit hpair cs), h.readOctet_reader,
    Token.ofLexeme, TokenKind.ofLexeme_singleton hletter hdigit]
  rfl

theorem readToken?_reader (h : c.StandsIn source file) (hrest : c.rest = x :: cs) :
    c.reader.readToken? x = some (c.takeLexeme.1, c.takeLexeme.2.reader) := by
  rw [Reader.readToken?]
  by_cases heq : x = '='
  · subst heq
    rw [if_pos rfl, h.readPair_reader hrest rfl .eq .assign rfl rfl]
  by_cases hbang : x = '!'
  · subst hbang
    rw [if_neg heq, if_pos rfl, h.readPair_reader hrest rfl .notEq .bang rfl rfl]
  have hpair : ¬ isPairHead x := by simp [isPairHead, heq, hbang]
  rw [if_neg heq, if_neg hbang]
  cases hlookup : TokenKind.symbols.lookup x with
  | some kind =>
    obtain ⟨hletter, hdigit, -⟩ := begins_of_isSymbol (isSymbol_of_lookup heq hbang hlookup)
    rw [h.takeLexeme_of_not_isPairHead hrest hletter hdigit hpair, TokenKind.ofSymbol, hlookup]
    rfl
  | none =>
    dsimp only
    by_cases hletter : isLetter x
    · have hne : c.rest.takeWhile isWordChar ≠ [] := by
        rw [hrest, List.takeWhile_cons_of_pos (isWordChar_of_isLetter hletter)]
        exact List.cons_ne_nil _ _
      rw [if_pos hletter, h.cut?_reader (fun _ hd => hd) hne, takeLexeme_eq hrest rfl,
        ofLexeme_lexeme_of_isLetter hletter, lexeme_of_isLetter hletter, hrest]
      rfl
    by_cases hdigit : x.isDigit
    · have hne : c.rest.takeWhile Char.isDigit ≠ [] := by
        rw [hrest, List.takeWhile_cons_of_pos hdigit]
        exact List.cons_ne_nil _ _
      rw [if_neg hletter, if_pos hdigit, h.cut?_reader (fun _ => isWordChar_of_isDigit) hne,
        takeLexeme_eq hrest rfl, ofLexeme_lexeme_of_isDigit hdigit, lexeme_of_isDigit hdigit, hrest]
      rfl
    rw [if_neg hletter, if_neg hdigit, h.takeLexeme_of_not_isPairHead hrest hletter hdigit hpair,
      TokenKind.ofSymbol, hlookup]
    rfl

/-- There is a next token, and it is the one that a cursor at the same place reads. -/
theorem next?_reader (h : c.StandsIn source file) :
    c.reader.next? = some (c.next.1, c.next.2.reader) := by
  rw [Reader.next?, h.start_reader]
  cases hrest : c.skipBlanks.markStart.rest with
  | nil =>
    have hnone : c.skipBlanks.markStart.reader.octet = none := by
      rw [reader, hrest, List.head?_nil]
    rw [hnone, Cursor.next, takeLexeme_eq hrest lexeme_nil]
    rfl
  | cons x cs =>
    have hsome : c.skipBlanks.markStart.reader.octet = some x := by
      rw [reader, hrest, List.head?_cons]
    rw [hsome]
    exact h.start.readToken?_reader hrest

theorem nextItem?_reader (h : c.StandsIn source file) :
    c.reader.nextItem? = some (c.next?.1, c.next?.2.reader) := by
  rw [Reader.nextItem?, h.next?_reader]
  rfl

end StandsIn

end Cursor

end MonkeyLang
