import MonkeyLang.Proofs.Parser.Batch
import MonkeyLang.Proofs.Token.Scan

/-!
# Parsing while reading

A parser holds two tokens of the text and a cursor behind them. `Reads` relates it to the list
of all the tokens that it has still to read; every operation of the parser keeps the relation
and does what the plain recursion over that list does.
-/

namespace MonkeyLang

/-- What parsing the tokens in front of a cursor depends on besides the tokens. -/
def Cursor.batch (c : Cursor) (table : StatementTable) : Batch :=
  ⟨table, c.file, c.stop⟩

namespace Parser

/-- The parser at the token with index `k` in front of a cursor. -/
def atIndex (c : Cursor) (k : Nat) (table : StatementTable) (ds : Array Diagnostic) : Parser :=
  ⟨c.after (k + 2), c.stream k, c.stream (k + 1), table, ds⟩

theorem advance_atIndex (c : Cursor) (k : Nat) (table : StatementTable) (ds : Array Diagnostic) :
    (atIndex c k table ds).advance = atIndex c (k + 1) table ds := by
  simp only [advance, atIndex, Cursor.stream, Cursor.nextLocated, Cursor.after_succ]

theorem skipToStatement_of_stop {p : Parser} (h : p.atStatement ∨ p.atStatementEnd) :
    p.skipToStatement = p := by
  rw [skipToStatement, if_pos (by rwa [Bool.or_eq_true])]

theorem skipToStatement_of_go {p : Parser} (hstart : ¬ p.atStatement)
    (hend : ¬ p.atStatementEnd) : p.skipToStatement = p.advance.skipToStatement := by
  rw [skipToStatement, if_neg (by rw [Bool.or_eq_true]; exact not_or.2 ⟨hstart, hend⟩)]

/-- The parser has still to read `ts` of the tokens in front of the cursor `c`. -/
def Reads (c : Cursor) (table : StatementTable) (ds : Array Diagnostic) (p : Parser)
    (ts : List LocatedToken) : Prop :=
  ∃ k, p = atIndex c k table ds ∧ ts = c.words.drop k

namespace Reads

variable {c : Cursor} {table : StatementTable} {ds : Array Diagnostic} {p : Parser}
  {ts : List LocatedToken}

theorem ofCursor (c : Cursor) : Reads c .standard #[] (.ofCursor c) c.words :=
  ⟨0, rfl, rfl⟩

theorem table_eq (h : Reads c table ds p ts) : p.table = table := by
  obtain ⟨k, rfl, rfl⟩ := h
  rfl

theorem diagnostics_eq (h : Reads c table ds p ts) : p.diagnostics = ds := by
  obtain ⟨k, rfl, rfl⟩ := h
  rfl

theorem source_eq (h : Reads c table ds p ts) : p.cursor.source = c.source := by
  obtain ⟨k, rfl, rfl⟩ := h
  exact c.source_after (k + 2)

theorem file_eq (h : Reads c table ds p ts) : p.file = c.file := by
  obtain ⟨k, rfl, rfl⟩ := h
  exact c.file_after (k + 2)

theorem current_eq (h : Reads c table ds p ts) : p.current = (c.batch table).head ts := by
  obtain ⟨k, rfl, rfl⟩ := h
  exact c.stream_eq k

theorem peek_eq (h : Reads c table ds p ts) : p.peek = (c.batch table).head ts.tail := by
  obtain ⟨k, rfl, rfl⟩ := h
  rw [List.tail_drop]
  exact c.stream_eq (k + 1)

theorem positionOf_eq (h : Reads c table ds p ts) (t : LocatedToken) :
    p.positionOf t = t.position (c.batch table).file := by
  rw [positionOf, h.file_eq, LocatedToken.position, Cursor.batch]

theorem kind_ne_eof (h : Reads c table ds p ts) {t : LocatedToken} (ht : t ∈ ts) :
    t.kind ≠ .eof := by
  obtain ⟨k, rfl, rfl⟩ := h
  exact Cursor.kind_ne_eof_of_mem_words (List.mem_of_mem_drop ht)

theorem kind_current_eq_eof_iff (h : Reads c table ds p ts) :
    p.current.kind = .eof ↔ ts = [] := by
  rw [h.current_eq]
  cases ts with
  | nil => simp [Batch.head, Cursor.batch, Cursor.stop, Token.endOfText]
  | cons t ts => simp [Batch.head, h.kind_ne_eof List.mem_cons_self]

/-! ### Changes of the parser -/

theorem advance (h : Reads c table ds p ts) : Reads c table ds p.advance ts.tail := by
  obtain ⟨k, rfl, rfl⟩ := h
  exact ⟨k + 1, advance_atIndex c k table ds, List.tail_drop⟩

theorem record (h : Reads c table ds p ts) (d : Diagnostic) :
    Reads c table (ds.push d) (p.record d) ts := by
  obtain ⟨k, rfl, rfl⟩ := h
  exact ⟨k, rfl, rfl⟩

theorem register (h : Reads c table ds p ts) (kind : TokenKind) (rule : StatementRule) :
    Reads c (table.insert kind rule) ds (p.register kind rule) ts := by
  obtain ⟨k, rfl, rfl⟩ := h
  exact ⟨k, rfl, rfl⟩

theorem expect_of_kind_eq (h : Reads c table ds p ts) {kind : TokenKind}
    (hkind : ((c.batch table).head ts.tail).kind = kind) :
    p.expect kind = (.ok ((c.batch table).head ts.tail).token, p.advance) := by
  rw [expect, h.peek_eq, if_pos hkind]

theorem expect_of_kind_ne (h : Reads c table ds p ts) {kind : TokenKind}
    (hkind : ((c.batch table).head ts.tail).kind ≠ kind) :
    p.expect kind =
      (.error (.unexpected (c.batch table).file kind ((c.batch table).head ts.tail)), p) := by
  rw [expect, h.positionOf_eq, h.peek_eq, if_neg hkind]
  rfl

/-- Nothing is left to read: the parser is at the end of the text. -/
theorem eq_of_nil (h : Reads c table ds p []) : p = ⟨c.finish, c.stop, c.stop, table, ds⟩ := by
  obtain ⟨k, rfl, hk⟩ := h
  have hlen : c.words.length ≤ k := List.drop_eq_nil_iff.1 hk.symm
  have hstream (n : Nat) (hn : k ≤ n) : c.stream n = c.stop := by
    rw [c.stream_eq, List.drop_eq_nil_iff.2 (Nat.le_trans hlen hn), List.headD_nil]
  rw [atIndex, Cursor.after_eq_finish (by omega), hstream k (Nat.le_refl k),
    hstream (k + 1) (Nat.le_succ k)]

/-! ### Statements -/

theorem atStatementEnd_nil (h : Reads c table ds p []) : p.atStatementEnd := by
  rw [atStatementEnd, h.kind_current_eq_eof_iff.2 rfl]
  rfl

theorem atStatementEnd_cons {t : LocatedToken} (h : Reads c table ds p (t :: ts)) :
    p.atStatementEnd ↔ t.kind = .semicolon := by
  have hcur : p.current = t := h.current_eq
  simp [atStatementEnd, hcur, h.kind_ne_eof List.mem_cons_self]

/-- Moving to the end of the statement drops the tokens before the next semicolon. -/
theorem skipToEnd (h : Reads c table ds p ts) :
    Reads c table ds p.skipToEnd (ts.dropWhile (·.kind ≠ .semicolon)) := by
  induction ts generalizing p with
  | nil =>
    rw [Parser.skipToEnd, if_pos h.atStatementEnd_nil]
    exact h
  | cons t ts ih =>
    rw [Parser.skipToEnd]
    by_cases ht : t.kind = .semicolon
    · rw [if_pos (h.atStatementEnd_cons.2 ht), List.dropWhile_cons_of_neg (by simpa using ht)]
      exact h
    · rw [if_neg (ht ∘ h.atStatementEnd_cons.1), List.dropWhile_cons_of_pos (by simpa using ht)]
      exact ih h.advance

theorem parseLet (h : Reads c table ds p ts) :
    p.parseLet.1 = ((c.batch table).parseLet ts).1 ∧
      Reads c table ds p.parseLet.2 ((c.batch table).parseLet ts).2 := by
  simp only [Batch.parseLet]
  by_cases hname : ((c.batch table).head ts.tail).kind = .ident
  · rw [if_neg (not_not_intro hname)]
    by_cases hsign : ((c.batch table).head ts.tail.tail).kind = .assign
    · rw [if_neg (not_not_intro hsign)]
      simp only [Parser.parseLet, h.expect_of_kind_eq hname, h.advance.expect_of_kind_eq hsign,
        h.current_eq, true_and]
      exact h.advance.advance.skipToEnd
    · rw [if_pos hsign]
      simp only [Parser.parseLet, h.expect_of_kind_eq hname, h.advance.expect_of_kind_ne hsign,
        true_and]
      exact h.advance
  · rw [if_pos hname]
    simp only [Parser.parseLet, h.expect_of_kind_ne hname, true_and]
    exact h

theorem parseRule (h : Reads c table ds p ts) (rule : StatementRule) :
    (rule.parse p).1 = ((c.batch table).parseRule rule ts).1 ∧
      Reads c table ds (rule.parse p).2 ((c.batch table).parseRule rule ts).2 := by
  cases rule with
  | letStatement => exact h.parseLet
  | identifier =>
    simp only [StatementRule.parse, Batch.parseRule, h.current_eq, true_and]
    exact h
  | integer =>
    simp only [StatementRule.parse, Batch.parseRule, h.current_eq, h.positionOf_eq, true_and]
    exact h

theorem parseStatement (h : Reads c table ds p ts) :
    p.parseStatement.1 = ((c.batch table).parseStatement ts).1 ∧
      Reads c table ds p.parseStatement.2 ((c.batch table).parseStatement ts).2 := by
  have htable : (c.batch table).table = table := rfl
  simp only [Parser.parseStatement, Batch.parseStatement, h.table_eq, htable, h.current_eq]
  cases table ((c.batch table).head ts).kind with
  | some rule =>
    obtain ⟨hresult, hreads⟩ := h.parseRule rule
    exact ⟨congrArg (Except.map some) hresult, hreads⟩
  | none =>
    by_cases hsemi : ((c.batch table).head ts).kind = .semicolon
    · simp only [if_pos hsemi, true_and]
      exact h
    · simp only [if_neg hsemi, h.positionOf_eq, Diagnostic.unrecognised, true_and]
      exact h

/-! ### Whole programs -/

theorem atStatement_eq (h : Reads c table ds p ts) :
    p.atStatement = (table ((c.batch table).head ts).kind).isSome := by
  rw [atStatement, h.table_eq, h.current_eq]

/-- Skipping stops where the recursion over the list resumes: at the start of a statement, or at
the semicolon or the end of the text in front of it. -/
theorem skipToStatement (h : Reads c table ds p ts) :
    Reads c table ds
      (if p.skipToStatement.atStatement then p.skipToStatement else p.skipToStatement.advance)
      ((c.batch table).resume ts) := by
  induction ts generalizing p with
  | nil =>
    rw [skipToStatement_of_stop (.inr h.atStatementEnd_nil)]
    split
    · exact h
    · exact h.advance
  | cons t ts ih =>
    have hstart : p.atStatement = (table t.kind).isSome := h.atStatement_eq
    by_cases hrule : (table t.kind).isSome
    · have hresume : (c.batch table).resume (t :: ts) = t :: ts := if_pos hrule
      rw [skipToStatement_of_stop (.inl (hstart.trans hrule)), if_pos (hstart.trans hrule), hresume]
      exact h
    · have hnot : ¬ p.atStatement := by rwa [hstart]
      by_cases ht : t.kind = .semicolon
      · have hresume : (c.batch table).resume (t :: ts) = ts := by
          rw [Batch.resume, if_neg (by exact hrule), if_pos ht]
        rw [skipToStatement_of_stop (.inr (h.atStatementEnd_cons.2 ht)), if_neg hnot, hresume]
        exact h.advance
      · have hresume : (c.batch table).resume (t :: ts) = (c.batch table).resume ts := by
          rw [Batch.resume, if_neg (by exact hrule), if_neg ht]
        rw [skipToStatement_of_go hnot (ht ∘ h.atStatementEnd_cons.1), hresume]
        exact ih h.advance

/-- Recovery behind a fault resumes where the recursion over the list does. -/
theorem recover (h : Reads c table ds p ts) :
    Reads c table ds p.recover ((c.batch table).resume ts.tail) :=
  h.advance.skipToStatement

/-- Parsing to the end of the text gives what the recursion over the list gives. -/
theorem parseStatements (h : Reads c table ds p ts) :
    p.parseStatements.1 = ((c.batch table).parseAll ts).1 ∧
      Reads c table (ds ++ ((c.batch table).parseAll ts).2) p.parseStatements.2 [] := by
  induction ts using Batch.parseAll.induct (c.batch table) generalizing p ds with
  | case1 =>
    rw [Parser.parseStatements, if_pos (h.kind_current_eq_eof_iff.2 rfl), Batch.parseAll]
    exact ⟨rfl, h⟩
  | case2 t ts node? hresult ih =>
    have hcur : p.current.kind ≠ .eof := by
      rw [ne_eq, h.kind_current_eq_eof_iff]
      exact List.cons_ne_nil t ts
    obtain ⟨hstatement, hreads⟩ := h.parseStatement
    rw [Parser.parseStatements, if_neg hcur, Batch.parseAll]
    simp only [hstatement, hresult]
    obtain ⟨hnodes, hend⟩ := ih hreads.advance
    exact ⟨congrArg (node?.toList ++ ·) hnodes, hend⟩
  | case3 t ts d hresult ih =>
    have hcur : p.current.kind ≠ .eof := by
      rw [ne_eq, h.kind_current_eq_eof_iff]
      exact List.cons_ne_nil t ts
    obtain ⟨hstatement, hreads⟩ := h.parseStatement
    rw [Parser.parseStatements, if_neg hcur, Batch.parseAll]
    simp only [hstatement, hresult]
    obtain ⟨hnodes, hend⟩ := ih (hreads.record d).recover
    refine ⟨hnodes, ?_⟩
    rw [Array.appendList_cons]
    exact hend

end Reads

end Parser

end MonkeyLang
