import MonkeyLang.Proofs.Parser.Simulation

/-!
# Parsers in use

A parser can be used in any order: advanced, asked for a kind of token, made to parse one statement
or a whole program, made to recover, given new rules. Whatever has been done with it, it reads on
from one place of its text, and the program it parses is that of the list of tokens from there on
(`parseProgram_eq_parseAll`).
-/

namespace MonkeyLang

namespace Parser

/-- What can be done with a parser. -/
inductive Operation
  | advance
  | expect (kind : TokenKind)
  | parseStatement
  | parseLet
  | recover
  | parseProgram
  | register (kind : TokenKind) (rule : StatementRule)

/-- A rule is registered for a kind that it suits: the rule for integers is for numbers. Nothing
keeps it from being registered for another kind, and then it reads the literals of that kind. -/
def Operation.Suits : Operation → Prop
  | register kind rule => rule = .integer → kind = .int
  | _ => True

/-- The parser after an operation. -/
def Operation.run (p : Parser) : Operation → Parser
  | advance => p.advance
  | expect kind => (p.expect kind).2
  | parseStatement => p.parseStatement.2
  | parseLet => p.parseLet.2
  | recover => p.recover
  | parseProgram => p.parseProgram.2
  | register kind rule => p.register kind rule

/-- The parsers that suitable operations make of a fresh parser on a source text. -/
inductive Reachable (source : String) (file : Option String) : Parser → Prop
  | start : Reachable source file (.ofCursor (.ofSource source file))
  | step {p : Parser} (op : Operation) (hop : op.Suits) :
      Reachable source file p → Reachable source file (op.run p)

/-- Every operation leaves a parser that reads on in the same text. Parsing a program may add
diagnostics, and nothing else does. -/
theorem Reads.run {c : Cursor} {table : StatementTable} {ds : Array Diagnostic} {p : Parser}
    {ts : List LocatedToken} (h : Reads c table ds p ts) (op : Operation) :
    ∃ table' ts', ∃ new : List Diagnostic, Reads c table' (ds ++ new) (op.run p) ts' ∧
      ts' <:+ ts ∧ (op ≠ .parseProgram → new = []) := by
  have hnil : ds ++ ([] : List Diagnostic) = ds := Array.appendList_nil
  cases op with
  | parseProgram =>
    exact ⟨_, [], _, h.parseStatements.2, List.nil_suffix, fun hne => absurd rfl hne⟩
  | advance => exact ⟨_, _, [], hnil ▸ h.advance, List.tail_suffix ts, fun _ => rfl⟩
  | expect kind =>
    by_cases hkind : ((c.batch table).head ts.tail).kind = kind
    · rw [Operation.run, h.expect_of_kind_eq hkind]
      exact ⟨_, _, [], hnil ▸ h.advance, List.tail_suffix ts, fun _ => rfl⟩
    · rw [Operation.run, h.expect_of_kind_ne hkind]
      exact ⟨_, _, [], hnil ▸ h, List.suffix_refl ts, fun _ => rfl⟩
  | parseStatement =>
    exact ⟨_, _, [], hnil ▸ h.parseStatement.2, Batch.parseStatement_suffix _ ts, fun _ => rfl⟩
  | parseLet => exact ⟨_, _, [], hnil ▸ h.parseLet.2, Batch.parseLet_suffix _ ts, fun _ => rfl⟩
  | recover =>
    refine ⟨_, _, [], hnil ▸ h.recover, ?_, fun _ => rfl⟩
    exact (Batch.resume_suffix _ ts.tail).trans (List.tail_suffix ts)
  | register kind rule =>
    exact ⟨_, _, [], hnil ▸ h.register kind rule, List.suffix_refl ts, fun _ => rfl⟩

theorem Reads.foldl_run {c : Cursor} {table : StatementTable} {ds : Array Diagnostic} {p : Parser}
    {ts : List LocatedToken} (h : Reads c table ds p ts) (ops : List Operation) :
    ∃ table' ds' ts', Reads c table' ds' (ops.foldl Operation.run p) ts' := by
  induction ops generalizing table ds p ts with
  | nil => exact ⟨table, ds, ts, h⟩
  | cons op ops ih =>
    obtain ⟨table', ts', new, hrun, -⟩ := h.run op
    exact ih hrun

theorem Reachable.reads {source : String} {file : Option String} {p : Parser}
    (h : Reachable source file p) :
    ∃ ts, Reads (.ofSource source file) p.table p.diagnostics p ts := by
  have hreads : ∃ table ds ts, Reads (.ofSource source file) table ds p ts := by
    induction h with
    | start => exact ⟨_, _, _, .ofCursor _⟩
    | step op _ _ ih =>
      obtain ⟨table, ds, ts, hp⟩ := ih
      obtain ⟨table', ts', new, hrun, -⟩ := hp.run op
      exact ⟨table', _, ts', hrun⟩
  obtain ⟨table, ds, ts, hp⟩ := hreads
  refine ⟨ts, ?_⟩
  rw [hp.table_eq, hp.diagnostics_eq]
  exact hp

/-- The tokens that a parser has still to read, its current one included, up to the end of the
text. -/
def unread (p : Parser) : List LocatedToken :=
  (p.current :: p.peek :: p.cursor.tokens).takeWhile (·.kind ≠ .eof)

private theorem takeWhile_append_stop {us : List LocatedToken} (hus : ∀ t ∈ us, t.kind ≠ .eof)
    (c : Cursor) (vs : List LocatedToken) :
    (us ++ c.stop :: vs).takeWhile (·.kind ≠ .eof) = us := by
  rw [List.takeWhile_append_of_pos fun t ht => decide_eq_true (hus t ht),
    List.takeWhile_cons_of_neg (by simp [Cursor.stop, Token.endOfText]), List.append_nil]

theorem Reads.unread_eq {c : Cursor} {table : StatementTable} {ds : Array Diagnostic} {p : Parser}
    {ts : List LocatedToken} (h : Reads c table ds p ts) : p.unread = ts := by
  have htokens : p.cursor.tokens = ts.tail.tail ++ [c.stop] := by
    obtain ⟨k, rfl, rfl⟩ := h
    rw [List.tail_drop, List.tail_drop, atIndex, Cursor.tokens_eq, Cursor.words_after,
      Cursor.stop_after]
  have hkind : ∀ t ∈ ts, t.kind ≠ .eof := by
    intro t ht
    exact h.kind_ne_eof ht
  rw [unread, h.current_eq, h.peek_eq, htokens]
  rcases ts with _ | ⟨t, _ | ⟨u, ts⟩⟩
  · exact takeWhile_append_stop hkind c _
  · exact takeWhile_append_stop hkind c _
  · exact takeWhile_append_stop hkind c []

/-- Whatever has been done with a parser and whichever statements it knows: parsing the program
gives the statements and records the diagnostics of the recursion over the list of the tokens
still to be read, which end the source text, and leaves the parser at its end. -/
theorem parseProgram_eq_parseAll {source : String} {file : Option String} {p : Parser}
    (h : Reachable source file p) :
    let c := Cursor.ofSource source file
    p.unread <:+ c.tokens.dropLast ∧
      p.parseProgram.1.statements = ((c.batch p.table).parseAll p.unread).1 ∧
      p.parseProgram.2 =
        { p with
          cursor := c.finish
          current := c.stop
          peek := c.stop
          diagnostics := p.diagnostics ++ ((c.batch p.table).parseAll p.unread).2 } := by
  intro c
  obtain ⟨ts, hreads⟩ := h.reads
  obtain ⟨hnodes, hend⟩ := hreads.parseStatements
  rw [hreads.unread_eq]
  refine ⟨?_, hnodes, hend.eq_of_nil⟩
  obtain ⟨k, -, rfl⟩ := hreads
  rw [Cursor.tokens_eq, List.dropLast_concat]
  exact List.drop_suffix k c.words

/-- A parser that takes a semicolon and an integer for statements, behind the first token: the
fault at `5` does not hide the statement that it is, and the semicolon is one as well. -/
theorem parseProgram_eq_parseAll_registered :
    ∃ p, Reachable "x let a 5; 99999999999999999999" none p ∧
      p.unread <:+ (Cursor.ofSource "x let a 5; 99999999999999999999" none).tokens.dropLast ∧
      p.parseProgram.1.statements =
        (((Cursor.ofSource "x let a 5; 99999999999999999999" none).batch p.table).parseAll
          p.unread).1 ∧
      p.parseProgram.1.statements =
        [.integer ⟨⟨.int, "5"⟩, 5⟩, .identifier ⟨⟨.semicolon, ";"⟩, ";"⟩] ∧
      p.parseProgram.2.diagnostics.size = 2 := by
  have hreach : Reachable "x let a 5; 99999999999999999999" none
      (Operation.run (Operation.run (Operation.run _ .advance) (.register .semicolon .identifier))
        (.register .int .integer)) :=
    .step _ (fun _ => rfl) (.step _ nofun (.step _ trivial .start))
  have hparse := parseProgram_eq_parseAll hreach
  exact ⟨_, hreach, hparse.1, hparse.2.1, by decide +kernel, by decide +kernel⟩

end Parser

end MonkeyLang
