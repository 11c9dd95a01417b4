import MonkeyLang.Proofs.Parser.Operation

/-!
# Parsing makes progress

Parsing a program is a loop of passes, each of which parses one statement or records one fault.
Whichever kinds of token start a statement, the end of the text and the semicolon among them, a
pass moves over at least one token, because recovery gives up its first token even where that
token starts a statement. So the loop ends, at the end of the text, after at most as many passes
as there were tokens to read (`parseProgram_passes`).
-/

namespace MonkeyLang

namespace Batch

variable (b : Batch)

theorem tail_parseStatement_suffix (t : LocatedToken) (ts : List LocatedToken) :
    (b.parseStatement (t :: ts)).2.tail <:+ ts := by
  rcases List.suffix_cons_iff.1 (b.parseStatement_suffix (t :: ts)) with heq | hsuffix
  · exact ⟨[], congrArg List.tail heq⟩
  · exact (List.tail_suffix _).trans hsuffix

/-- Every statement and every diagnostic takes a token of its own. -/
theorem length_parseAll_le (ts : List LocatedToken) :
    (b.parseAll ts).1.length + (b.parseAll ts).2.length ≤ ts.length := by
  induction ts using parseAll.induct b with
  | case1 =>
    rw [parseAll]
    exact Nat.le_refl 0
  | case2 t ts node? hresult ih =>
    have hnode : node?.toList.length ≤ 1 := by cases node? <;> simp
    have hrest := (b.tail_parseStatement_suffix t ts).length_le
    rw [parseAll, hresult]
    simp only [List.length_append, List.length_cons]
    omega
  | case3 t ts d hresult ih =>
    have hrest := ((b.resume_suffix _).trans (b.tail_parseStatement_suffix t ts)).length_le
    rw [parseAll, hresult]
    simp only [List.length_cons]
    omega

end Batch

namespace Parser

/-- One pass of the loop: the statements so far, and the parser. -/
def pass (s : List Node × Parser) : List Node × Parser :=
  match s.2.parseStatement.1 with
  | .ok node? => (s.1 ++ node?.toList, s.2.parseStatement.2.advance)
  | .error d => (s.1, (s.2.parseStatement.2.record d).recover)

/-- The loop goes from one state to another in `n` passes and stops there, at the end of the text.
No pass starts at the end of the text, and each of them moves over at least one token. -/
inductive Passes : Nat → List Node × Parser → List Node × Parser → Prop
  | stop {s : List Node × Parser} (heof : s.2.current.kind = .eof) : Passes 0 s s
  | go {n : Nat} {s s' : List Node × Parser} {passed : List LocatedToken}
      (heof : s.2.current.kind ≠ .eof) (hpassed : passed ≠ []) (hkind : ∀ t ∈ passed, t.kind ≠ .eof)
      (hunread : s.2.unread = passed ++ (pass s).2.unread) (later : Passes n (pass s) s') :
      Passes (n + 1) s s'

theorem Passes.kind_eq_eof {n : Nat} {s s' : List Node × Parser} (h : Passes n s s') :
    s'.2.current.kind = .eof := by
  induction h with
  | stop heof => exact heof
  | go _ _ _ _ _ ih => exact ih

theorem parseStatements_of_eof {p : Parser} (h : p.current.kind = .eof) :
    p.parseStatements = ([], p) := by
  rw [parseStatements, if_pos h]

/-- The loop goes on with what a pass leaves. -/
theorem parseStatements_eq_pass {p : Parser} (h : p.current.kind ≠ .eof) (ns : List Node) :
    (ns ++ p.parseStatements.1, p.parseStatements.2) =
      ((pass (ns, p)).1 ++ (pass (ns, p)).2.parseStatements.1,
        (pass (ns, p)).2.parseStatements.2) := by
  rw [parseStatements, if_neg h, pass]
  cases p.parseStatement.1 with
  | ok node? => simp only [List.append_assoc]
  | error d => rfl

namespace Reads

variable {c : Cursor} {table : StatementTable} {ds : Array Diagnostic} {p : Parser}
  {t : LocatedToken} {ts : List LocatedToken}

/-- A pass reads its first token at least. -/
theorem pass (h : Reads c table ds p (t :: ts)) (ns : List Node) :
    ∃ ds' ts', Reads c table ds' (Parser.pass (ns, p)).2 ts' ∧ ts' <:+ ts := by
  obtain ⟨hresult, hreads⟩ := h.parseStatement
  have hrest := (c.batch table).tail_parseStatement_suffix t ts
  rw [Parser.pass]
  cases p.parseStatement.1 with
  | ok node? => exact ⟨ds, _, hreads.advance, hrest⟩
  | error d => exact ⟨_, _, (hreads.record d).recover, (Batch.resume_suffix _ _).trans hrest⟩

/-- The loop ends, after at most one pass for each token. -/
theorem passes (h : Reads c table ds p ts) (ns : List Node) :
    ∃ n ≤ ts.length, Passes n (ns, p) (ns ++ p.parseStatements.1, p.parseStatements.2) := by
  induction hlen : ts.length using Nat.strongRecOn generalizing ds p ts ns with
  | _ k ih =>
    cases ts with
    | nil =>
      have heof : p.current.kind = .eof := h.kind_current_eq_eof_iff.2 rfl
      rw [parseStatements_of_eof heof, List.append_nil]
      exact ⟨0, Nat.zero_le k, .stop heof⟩
    | cons t ts =>
      have heof : p.current.kind ≠ .eof := by
        rw [ne_eq, h.kind_current_eq_eof_iff]
        exact List.cons_ne_nil t ts
      obtain ⟨ds', ts', hpass, passed, rfl⟩ := h.pass ns
      have hlt : ts'.length < k := by
        rw [← hlen, List.length_cons, List.length_append]
        omega
      obtain ⟨n, hn, hlater⟩ := ih ts'.length hlt hpass (Parser.pass (ns, p)).1 rfl
      have hunread : p.unread = t :: passed ++ (Parser.pass (ns, p)).2.unread := by
        rw [h.unread_eq, hpass.unread_eq, List.cons_append]
      have hkind : ∀ u ∈ t :: passed, u.kind ≠ .eof := by
        intro u hu
        exact h.kind_ne_eof (List.mem_append_left ts' hu)
      rw [parseStatements_eq_pass heof]
      exact ⟨n + 1, Nat.lt_of_le_of_lt hn hlt,
        .go heof (List.cons_ne_nil t passed) hkind hunread hlater⟩

end Reads

theorem kind_current_foldl_register (registrations : List (TokenKind × StatementRule))
    (p : Parser) :
    (registrations.foldl (fun q r => q.register r.1 r.2) p).current = p.current := by
  induction registrations generalizing p with
  | nil => rfl
  | cons r registrations ih => exact ih (p.register r.1 r.2)

/-- Whatever has been done with a parser and whichever statements it knows: parsing the program
ends, at the end of the text, after passes that each move over a token. It gives no more statements
and diagnostics than there were tokens to read, and then there is nothing left to parse, whichever
rules are added. -/
theorem parseProgram_passes {source : String} {file : Option String} {p : Parser}
    (h : Reachable source file p) :
    (∃ n ≤ p.unread.length, Passes n ([], p) (p.parseProgram.1.statements, p.parseProgram.2)) ∧
      p.parseProgram.2.current.kind = .eof ∧
      (∃ new : List Diagnostic, p.parseProgram.2.diagnostics = p.diagnostics ++ new ∧
        p.parseProgram.1.size + new.length ≤ p.unread.length) ∧
      ∀ registrations : List (TokenKind × StatementRule),
        let q := registrations.foldl (fun q r => q.register r.1 r.2) p.parseProgram.2
        q.parseProgram = (.empty, q) := by
  obtain ⟨ts, hreads⟩ := h.reads
  obtain ⟨n, hn, hpasses⟩ := hreads.passes []
  obtain ⟨hnodes, hend⟩ := hreads.parseStatements
  have heof : p.parseProgram.2.current.kind = .eof := hpasses.kind_eq_eof
  rw [hreads.unread_eq]
  refine ⟨⟨n, hn, hpasses⟩, heof, ⟨_, hend.diagnostics_eq, ?_⟩, ?_⟩
  · have hsize : p.parseProgram.1.size = (((Cursor.ofSource source file).batch p.table).parseAll
        ts).1.length := congrArg List.length hnodes
    rw [hsize]
    exact Batch.length_parseAll_le _ ts
  · intro registrations q
    have hq : q.current.kind = .eof := by
      rw [kind_current_foldl_register]
      exact heof
    rw [parseProgram, parseStatements_of_eof hq]
    rfl

/-- A parser for which the semicolon and the end of the text start statements: each fault is found
at the start of the next statement, and still every pass moves on. -/
theorem parseProgram_passes_registered :
    ∃ p, Reachable "; let let 5 ; x = 1" none p ∧ p.unread.length = 8 ∧
      (∃ n ≤ p.unread.length, Passes n ([], p) (p.parseProgram.1.statements, p.parseProgram.2)) ∧
      p.parseProgram.1.size = 1 ∧ p.parseProgram.2.diagnostics.size = 3 ∧
      (p.parseProgram.2.register .eof .integer).parseProgram =
        (.empty, p.parseProgram.2.register .eof .integer) := by
  have hreach : Reachable "; let let 5 ; x = 1" none
      (Operation.run (Operation.run _ (.register .semicolon .letStatement))
        (.register .eof .identifier)) :=
    .step _ nofun (.step _ nofun .start)
  obtain ⟨hpasses, -, -, hagain⟩ := parseProgram_passes hreach
  refine ⟨_, hreach, by decide +kernel, hpasses, by decide +kernel, by decide +kernel, ?_⟩
  exact hagain [(.eof, .integer)]

end Parser

end MonkeyLang
