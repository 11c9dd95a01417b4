import MonkeyLang.Parser.Recovery

/-!
# Parsing a list of tokens

The rules of parsing as a plain recursion over the tokens that are still to be read, all known in
advance. The list holds no end of the text; behind its last token the end of the text stands for
ever, so dropping a token from the empty list leaves the empty list.
-/

namespace MonkeyLang

/-- The position of a token in a source with the given name. -/
def LocatedToken.position (t : LocatedToken) (file : String) : Position :=
  ⟨UInt32.ofNat t.offset, file⟩

namespace Diagnostic

/-- The diagnostic on a token in whose place another kind has to stand. -/
def unexpected (file : String) (kind : TokenKind) (t : LocatedToken) : Diagnostic :=
  ⟨.unexpectedToken kind t.token, t.position file⟩

/-- The diagnostic on a token that starts no statement. -/
def unrecognised (file : String) (t : LocatedToken) : Diagnostic :=
  ⟨.unrecognisedStatement t.token, t.position file⟩

end Diagnostic

/-- What the parse of a list of tokens depends on besides the list. -/
structure Batch where
  table : StatementTable
  file : String
  /-- The end of the text, behind the tokens of the list. -/
  stop : LocatedToken

namespace Batch

variable (b : Batch)

/-- The first token that is still to be read. -/
def head (ts : List LocatedToken) : LocatedToken :=
  ts.headD b.stop

/-- A `let` statement: a name and `=` behind its first token, then everything before the next
semicolon. A fault leaves the token before the faulty one as the first of the rest. -/
def parseLet (ts : List LocatedToken) : Except Diagnostic Node × List LocatedToken :=
  let name := b.head ts.tail
  let sign := b.head ts.tail.tail
  if name.kind ≠ .ident then
    (.error (.unexpected b.file .ident name), ts)
  else if sign.kind ≠ .assign then
    (.error (.unexpected b.file .assign sign), ts.tail)
  else
    (.ok (.letStatement (b.head ts).token (.ofToken name.token) none),
      ts.tail.tail.dropWhile (·.kind ≠ .semicolon))

def parseRule (rule : StatementRule) (ts : List LocatedToken) :
    Except Diagnostic Node × List LocatedToken :=
  match rule with
  | .letStatement => b.parseLet ts
  | .identifier => (.ok (.identifier (.ofToken (b.head ts).token)), ts)
  | .integer =>
    ((IntegerLiteral.ofToken (b.head ts).token ((b.head ts).position b.file)).map Node.integer, ts)

/-- The statement at the front of a list; what is left begins with the last token it used. -/
def parseStatement (ts : List LocatedToken) :
    Except Diagnostic (Option Node) × List LocatedToken :=
  match b.table (b.head ts).kind with
  | some rule => ((b.parseRule rule ts).1.map some, (b.parseRule rule ts).2)
  | none =>
    if (b.head ts).kind = .semicolon then
      (.ok none, ts)
    else
      (.error (.unrecognised b.file (b.head ts)), ts)

/-- Drops tokens up to one that starts a statement, which stays, or a semicolon, which does not. -/
def resume : List LocatedToken → List LocatedToken
  | [] => []
  | t :: ts =>
    if (b.table t.kind).isSome then t :: ts
    else if t.kind = .semicolon then ts
    else resume ts

/-! ### Every statement takes a token -/

theorem resume_suffix (ts : List LocatedToken) : b.resume ts <:+ ts := by
  induction ts with
  | nil => exact List.suffix_refl _
  | cons t ts ih =>
    rw [resume]
    split
    · exact List.suffix_refl _
    · split
      · exact List.suffix_cons t ts
      · exact ih.trans (List.suffix_cons t ts)

theorem length_resume_le (ts : List LocatedToken) : (b.resume ts).length ≤ ts.length :=
  (b.resume_suffix ts).length_le

theorem parseLet_suffix (ts : List LocatedToken) : (b.parseLet ts).2 <:+ ts := by
  simp only [parseLet]
  split
  · exact List.suffix_refl _
  · split
    · exact List.tail_suffix ts
    · exact (List.dropWhile_suffix _).trans ((List.tail_suffix _).trans (List.tail_suffix ts))

/-- What is left behind a statement is an end of what there was. -/
theorem parseStatement_suffix (ts : List LocatedToken) : (b.parseStatement ts).2 <:+ ts := by
  unfold parseStatement
  split
  · rename_i rule _
    cases rule with
    | letStatement => exact b.parseLet_suffix ts
    | identifier => exact List.suffix_refl _
    | integer => exact List.suffix_refl _
  · split <;> exact List.suffix_refl _

theorem length_tail_parseStatement_lt (t : LocatedToken) (ts : List LocatedToken) :
    (b.parseStatement (t :: ts)).2.tail.length < (t :: ts).length := by
  have hle := (b.parseStatement_suffix (t :: ts)).length_le
  rw [List.length_tail]
  rw [List.length_cons] at hle ⊢
  omega

/-- The statements of a list of tokens, and the diagnostics on it. After a statement its last
token is dropped; after a fault the token before the faulty one is, and parsing resumes. -/
def parseAll : List LocatedToken → List Node × List Diagnostic
  | [] => ([], [])
  | t :: ts =>
    match (b.parseStatement (t :: ts)).1 with
    | .ok node? =>
      let later := parseAll (b.parseStatement (t :: ts)).2.tail
      (node?.toList ++ later.1, later.2)
    | .error d =>
      let later := parseAll (b.resume (b.parseStatement (t :: ts)).2.tail)
      (later.1, d :: later.2)
termination_by ts => ts.length
decreasing_by
  · exact b.length_tail_parseStatement_lt t ts
  · exact Nat.lt_of_le_of_lt (b.length_resume_le _) (b.length_tail_parseStatement_lt t ts)

variable {b}

theorem parseAll_of_ok {t : LocatedToken} {ts rest : List LocatedToken} {node? : Option Node}
    (h : b.parseStatement (t :: ts) = (.ok node?, rest)) :
    b.parseAll (t :: ts) =
      (node?.toList ++ (b.parseAll rest.tail).1, (b.parseAll rest.tail).2) := by
  rw [parseAll, h]

theorem parseAll_of_error {t : LocatedToken} {ts rest : List LocatedToken} {d : Diagnostic}
    (h : b.parseStatement (t :: ts) = (.error d, rest)) :
    b.parseAll (t :: ts) =
      ((b.parseAll (b.resume rest.tail)).1, d :: (b.parseAll (b.resume rest.tail)).2) := by
  rw [parseAll, h]

end Batch

end MonkeyLang
