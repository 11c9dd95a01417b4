import Mathlib.Algebra.Group.Nat.Defs
import MonkeyLang.Proofs.Parser.Lookahead

/-!
# Attempts at a `let` statement

An attempt at a `let` statement can be made at any token of a text and at its end. It takes the
whole statement, up to the semicolon or the end of the text, or it stops in front of the token that
is in the way and reports that one (`LetOutcome`). Apart from its place in the text the parser
stays as it was (`parseLet_foldl_run`), so recovery starts from the token in the way.
-/

namespace MonkeyLang

/-- The token is a semicolon or the end of the text. -/
def LocatedToken.EndsStatement (t : LocatedToken) : Prop :=
  t.kind = .semicolon ∨ t.kind = .eof

namespace Parser

/-- The first index from `k` on at which a statement ends. -/
structure FirstEnd (source : String) (file : Option String) (k j : Nat) : Prop where
  le : k ≤ j
  ends : (tokenAt source file j).EndsStatement
  first : ∀ i, k ≤ i → i < j → ¬ (tokenAt source file i).EndsStatement

/-- What an attempt at a `let` statement comes to at the token with index `k`: its result, and the
parser behind it. -/
inductive LetOutcome (source : String) (file : Option String) (k : Nat) (p : Parser) :
    Except Diagnostic Node × Parser → Prop
  | taken {j : Nat} {q : Parser} (hname : (tokenAt source file (k + 1)).kind = .ident)
      (hsign : (tokenAt source file (k + 2)).kind = .assign) (hj : FirstEnd source file (k + 3) j)
      (hq : LooksAt source file j q) :
      LetOutcome source file k p
        (.ok (.letStatement (tokenAt source file k).token
          (.ofToken (tokenAt source file (k + 1)).token) none), q)
  | noName (hname : (tokenAt source file (k + 1)).kind ≠ .ident) :
      LetOutcome source file k p
        (.error (.unexpected p.file .ident (tokenAt source file (k + 1))), p)
  | noSign (hname : (tokenAt source file (k + 1)).kind = .ident)
      (hsign : (tokenAt source file (k + 2)).kind ≠ .assign)
      (hq : LooksAt source file (k + 1) p.advance) :
      LetOutcome source file k p
        (.error (.unexpected p.file .assign (tokenAt source file (k + 2))), p.advance)

section

variable {source : String} {file : Option String} {k j : Nat}

/-! ### The end of a statement -/

theorem FirstEnd.of_succ (h : FirstEnd source file (k + 1) j)
    (hk : ¬ (tokenAt source file k).EndsStatement) : FirstEnd source file k j := by
  refine ⟨Nat.le_of_succ_le h.le, h.ends, ?_⟩
  intro i hki hij
  rcases Nat.eq_or_lt_of_le hki with rfl | hlt
  · exact hk
  · exact h.first i hlt hij

theorem FirstEnd.succ (h : FirstEnd source file k j)
    (hk : ¬ (tokenAt source file k).EndsStatement) : FirstEnd source file (k + 1) j := by
  refine ⟨?_, h.ends, fun i hki hij => h.first i (Nat.le_of_succ_le hki) hij⟩
  rcases Nat.eq_or_lt_of_le h.le with rfl | hlt
  · exact absurd h.ends hk
  · exact hlt

variable {table : StatementTable} {ds : Array Diagnostic} {p : Parser} {ts : List LocatedToken}

theorem LooksAt.atStatementEnd_iff (hk : LooksAt source file k p) :
    p.atStatementEnd ↔ (tokenAt source file k).EndsStatement := by
  rw [← hk.1, atStatementEnd, Bool.or_eq_true, decide_eq_true_iff, decide_eq_true_iff]
  exact Iff.rfl

theorem LooksAt.expect_of_kind_eq (hk : LooksAt source file k p) {kind : TokenKind}
    (h : (tokenAt source file (k + 1)).kind = kind) :
    p.expect kind = (.ok (tokenAt source file (k + 1)).token, p.advance) := by
  rw [expect, hk.2, if_pos h]

theorem LooksAt.expect_of_kind_ne (hk : LooksAt source file k p) {kind : TokenKind}
    (h : (tokenAt source file (k + 1)).kind ≠ kind) :
    p.expect kind = (.error (.unexpected p.file kind (tokenAt source file (k + 1))), p) := by
  rw [expect, hk.2, if_neg h]
  rfl

namespace Reads

theorem looksAt_advance (h : Reads (.ofSource source file) table ds p ts)
    (hk : LooksAt source file k p) : LooksAt source file (k + 1) p.advance := by
  rw [h.eq_atIndex hk, advance_atIndex]
  exact looksAt_atIndex source file (k + 1) table ds

/-- Skipping stops at the first end of a statement. There is one, because the end of the text is
one. -/
theorem exists_looksAt_skipToEnd (h : Reads (.ofSource source file) table ds p ts)
    (hk : LooksAt source file k p) :
    ∃ j, FirstEnd source file k j ∧ LooksAt source file j p.skipToEnd := by
  fun_induction Parser.skipToEnd p generalizing k ts with
  | case1 p hend =>
    refine ⟨k, ⟨Nat.le_refl k, hk.atStatementEnd_iff.1 hend, ?_⟩, hk⟩
    intro i hki hik
    exact absurd hki (Nat.not_le.2 hik)
  | case2 p hend ih =>
    obtain ⟨j, hj, hstop⟩ := ih h.advance (h.looksAt_advance hk)
    exact ⟨j, hj.of_succ (hend ∘ hk.atStatementEnd_iff.2), hstop⟩

/-! ### The attempt -/

theorem letOutcome (h : Reads (.ofSource source file) table ds p ts)
    (hk : LooksAt source file k p) : LetOutcome source file k p p.parseLet := by
  have hnext := h.looksAt_advance hk
  by_cases hname : (tokenAt source file (k + 1)).kind = .ident
  · by_cases hsign : (tokenAt source file (k + 2)).kind = .assign
    · -- skipping starts at the `=`, which ends no statement
      have hopen : ¬ (tokenAt source file (k + 2)).EndsStatement := by
        rw [LocatedToken.EndsStatement, hsign]
        decide
      obtain ⟨j, hj, hstop⟩ :=
        h.advance.advance.exists_looksAt_skipToEnd (h.advance.looksAt_advance hnext)
      simp only [Parser.parseLet, hk.expect_of_kind_eq hname, hnext.expect_of_kind_eq hsign, hk.1]
      exact .taken hname hsign (hj.succ hopen) hstop
    · simp only [Parser.parseLet, hk.expect_of_kind_eq hname, hnext.expect_of_kind_ne hsign]
      exact .noSign hname hsign hnext
  · simp only [Parser.parseLet, hk.expect_of_kind_ne hname]
    exact .noName hname

end Reads

namespace LetOutcome

variable {result : Except Diagnostic Node × Parser}

theorem exists_ok_iff (h : LetOutcome source file k p result) :
    (∃ node, result.1 = .ok node) ↔
      (tokenAt source file (k + 1)).kind = .ident ∧
        (tokenAt source file (k + 2)).kind = .assign := by
  cases h with
  | taken hname hsign _ _ => exact iff_of_true ⟨_, rfl⟩ ⟨hname, hsign⟩
  | noName hname => exact iff_of_false nofun fun hboth => hname hboth.1
  | noSign _ hsign _ => exact iff_of_false nofun fun hboth => hsign hboth.2

/-- A failed attempt reports the token that the parser is going to read next. -/
theorem exists_eq_unexpected (h : LetOutcome source file k p result)
    (hk : LooksAt source file k p) {d : Diagnostic} (hd : result.1 = .error d) :
    ∃ kind, d = .unexpected p.file kind result.2.peek := by
  cases h with
  | taken _ _ _ _ => cases hd
  | noName _ =>
    cases hd
    exact ⟨_, by rw [hk.2]⟩
  | noSign _ _ hq =>
    cases hd
    exact ⟨_, by rw [hq.2]⟩

end LetOutcome

end

/-- However a parser has been used, an attempt at a `let` statement comes to what the next two
tokens say, and it changes neither the rules nor the diagnostics nor the text. A failed attempt
reports the token that is the next one of the parser behind it, at its offset modulo 2^32. -/
theorem parseLet_foldl_run (source : String) (file : Option String) (ops : List Operation) :
    let p := ops.foldl Operation.run (.ofCursor (.ofSource source file))
    let q := p.parseLet.2
    (∃ k, LooksAt source file k p) ∧
      (∀ k, LooksAt source file k p →
        LetOutcome source file k p p.parseLet ∧
          ((∃ node, p.parseLet.1 = .ok node) ↔
            (tokenAt source file (k + 1)).kind = .ident ∧
              (tokenAt source file (k + 2)).kind = .assign)) ∧
      (q.table = p.table ∧ q.diagnostics = p.diagnostics ∧
        q.cursor.source = p.cursor.source ∧ q.file = p.file) ∧
      ∀ d, p.parseLet.1 = .error d →
        d.fault.found = q.peek.token ∧ d.position.offset.toNat = q.peek.offset % 2 ^ 32 ∧
          q.advance.current = q.peek := by
  intro p q
  obtain ⟨table, ds, ts, hp⟩ : ∃ table ds ts, Reads (.ofSource source file) table ds p ts :=
    (Reads.ofCursor _).foldl_run ops
  have hlooks : ∃ k, LooksAt source file k p := by
    obtain ⟨k, hk, -⟩ := hp
    exact ⟨k, hk ▸ looksAt_atIndex source file k table ds⟩
  refine ⟨hlooks, fun k hk => ⟨hp.letOutcome hk, (hp.letOutcome hk).exists_ok_iff⟩, ?_, ?_⟩
  · have hq := hp.parseLet.2
    rw [hq.table_eq, hp.table_eq, hq.diagnostics_eq, hp.diagnostics_eq, hq.source_eq,
      hp.source_eq, hq.file_eq, hp.file_eq]
    exact ⟨rfl, rfl, rfl, rfl⟩
  · intro d hd
    obtain ⟨k, hk⟩ := hlooks
    obtain ⟨kind, rfl⟩ := (hp.letOutcome hk).exists_eq_unexpected hk hd
    exact ⟨rfl, UInt32.toNat_ofNat', rfl⟩

/-- A number in the place of `=`, and another attempt far behind the end of the text. -/
theorem parseLet_foldl_run_number :
    let p := [.register .ident .identifier].foldl Operation.run
      (.ofCursor (.ofSource "let x 5" none))
    let q := [.parseProgram].foldl Operation.run (.ofCursor (.ofSource "let x 5" none))
    LooksAt "let x 5" none 0 p ∧ LetOutcome "let x 5" none 0 p p.parseLet ∧
      p.parseLet.1 = .error ⟨.unexpectedToken .assign ⟨.int, "5"⟩, ⟨6, "shell"⟩⟩ ∧
      p.parseLet.2.peek.token = ⟨.int, "5"⟩ ∧ p.parseLet.2.peek.offset % 2 ^ 32 = 6 ∧
      LooksAt "let x 5" none 9 q ∧ LetOutcome "let x 5" none 9 q q.parseLet := by
  intro p q
  obtain ⟨-, hp, -, hreport⟩ := parseLet_foldl_run "let x 5" none [.register .ident .identifier]
  obtain ⟨-, hq, -, -⟩ := parseLet_foldl_run "let x 5" none [.parseProgram]
  have hpk : LooksAt "let x 5" none 0 p := ⟨by decide +kernel, by decide +kernel⟩
  have hqk : LooksAt "let x 5" none 9 q := ⟨by decide +kernel, by decide +kernel⟩
  have herror : p.parseLet.1 = .error ⟨.unexpectedToken .assign ⟨.int, "5"⟩, ⟨6, "shell"⟩⟩ := by
    decide +kernel
  obtain ⟨hfound, hoffset, -⟩ := hreport _ herror
  exact ⟨hpk, (hp 0 hpk).1, herror, hfound.symm, hoffset.symm, hqk, (hq 9 hqk).1⟩

end Parser

end MonkeyLang
