import Mathlib.Data.List.GetD
import MonkeyLang.Proofs.Parser.Operation
import MonkeyLang.Proofs.Token.Tiling

/-!
# The lookahead of a parser

However a parser is used, the two tokens that it looks at are consecutive tokens of its text, each
with its own offset; behind the last token the end of the text stands for ever. The place only
moves forward, and diagnostics are recorded by parsing a program and by nothing else
(`looksAt_foldl_run`).
-/

namespace MonkeyLang

open Text

/-- The token with index `k` of a source text, the end of the text if there is none. -/
def tokenAt (source : String) (file : Option String) (k : Nat) : LocatedToken :=
  (Cursor.ofSource source file).tokens.getD k ⟨.endOfText, source.utf8ByteSize⟩

namespace Parser

/-- The parser looks at the tokens with indices `k` and `k + 1`. -/
def LooksAt (source : String) (file : Option String) (k : Nat) (p : Parser) : Prop :=
  p.current = tokenAt source file k ∧ p.peek = tokenAt source file (k + 1)

end Parser

/-! ### The tokens of a text by index -/

section

variable {α : Type} {xs : List α} {x : α} {k l : Nat}

theorem getD_concat_of_lt (hk : k < xs.length) : (xs ++ [x]).getD k x = xs[k] := by
  rw [List.getD_append _ _ _ _ hk, List.getD_eq_getElem _ _ hk]

theorem getD_concat_of_le (hk : xs.length ≤ k) : (xs ++ [x]).getD k x = x := by
  rw [List.getD_append_right _ _ _ _ hk]
  cases k - xs.length <;> rfl

theorem rel_getD_concat {r : α → α → Prop} (h : (xs ++ [x]).Pairwise r) (hkl : k < l)
    (hk : k < xs.length) : r ((xs ++ [x]).getD k x) ((xs ++ [x]).getD l x) := by
  obtain ⟨hxs, -, hlast⟩ := List.pairwise_append.1 h
  rw [getD_concat_of_lt hk]
  rcases Nat.lt_or_ge l xs.length with hl | hl
  · rw [getD_concat_of_lt hl]
    exact List.pairwise_iff_getElem.1 hxs k l hk hl hkl
  · rw [getD_concat_of_le hl]
    exact hlast _ (List.getElem_mem hk) x List.mem_cons_self

end

section

variable {source : String} {file : Option String} {k l : Nat}

theorem tokenAt_eq_getD (source : String) (file : Option String) (k : Nat) :
    tokenAt source file k =
      ((Cursor.ofSource source file).words ++ [(Cursor.ofSource source file).stop]).getD k
        (Cursor.ofSource source file).stop := by
  have hstop : (Cursor.ofSource source file).stop = ⟨.endOfText, source.utf8ByteSize⟩ := by
    rw [Cursor.stop, Cursor.ofSource, Nat.zero_add, length_octets_eq_utf8ByteSize]
  rw [tokenAt, Cursor.tokens_eq, hstop]

theorem tokenAt_eq_stream (source : String) (file : Option String) (k : Nat) :
    tokenAt source file k = (Cursor.ofSource source file).stream k := by
  rw [tokenAt_eq_getD, Cursor.stream_eq]
  rcases Nat.lt_or_ge k (Cursor.ofSource source file).words.length with hk | hk
  · rw [getD_concat_of_lt hk, List.drop_eq_getElem_cons hk, List.headD_cons]
  · rw [getD_concat_of_le hk, List.drop_eq_nil_iff.2 hk, List.headD_nil]

/-- Before the end of the text every token stands further on than those with smaller indices. -/
theorem offset_tokenAt_lt (hkl : k < l) (hk : k < (Cursor.ofSource source file).words.length) :
    (tokenAt source file k).offset < (tokenAt source file l).offset := by
  have hincreasing : ((Cursor.ofSource source file).words ++
      [(Cursor.ofSource source file).stop]).Pairwise fun t u => t.offset < u.offset := by
    rw [← Cursor.tokens_eq, tokens_ofSource]
    exact (tiles_scan _).increasing
  rw [tokenAt_eq_getD, tokenAt_eq_getD]
  exact rel_getD_concat hincreasing hkl hk

namespace Parser

variable {p : Parser}

/-- Only behind the last token does a parser look at the tokens of two indices at once. -/
theorem LooksAt.index_eq_or_le (hk : LooksAt source file k p) (hl : LooksAt source file l p) :
    k = l ∨ (Cursor.ofSource source file).words.length ≤ k ∧
      (Cursor.ofSource source file).words.length ≤ l := by
  have hoffset : (tokenAt source file k).offset = (tokenAt source file l).offset :=
    congrArg LocatedToken.offset (hk.1.symm.trans hl.1)
  rcases Nat.lt_trichotomy k l with hlt | heq | hlt
  · right
    have hle : (Cursor.ofSource source file).words.length ≤ k := by
      by_contra hnot
      exact absurd hoffset (Nat.ne_of_lt (offset_tokenAt_lt hlt (Nat.lt_of_not_le hnot)))
    exact ⟨hle, hle.trans hlt.le⟩
  · exact .inl heq
  · right
    have hle : (Cursor.ofSource source file).words.length ≤ l := by
      by_contra hnot
      exact absurd hoffset.symm (Nat.ne_of_lt (offset_tokenAt_lt hlt (Nat.lt_of_not_le hnot)))
    exact ⟨hle.trans hlt.le, hle⟩

theorem looksAt_atIndex (source : String) (file : Option String) (k : Nat)
    (table : StatementTable) (ds : Array Diagnostic) :
    LooksAt source file k (atIndex (.ofSource source file) k table ds) :=
  ⟨(tokenAt_eq_stream source file k).symm, (tokenAt_eq_stream source file (k + 1)).symm⟩

end Parser

end

namespace Parser

/-! ### The place of a parser in its text -/

namespace Reads

variable {c : Cursor} {table : StatementTable} {ds : Array Diagnostic} {p : Parser}
  {ts : List LocatedToken}

theorem atIndex_eq_of_le {k l : Nat} (hk : c.words.length ≤ k) (hl : c.words.length ≤ l)
    (table : StatementTable) (ds : Array Diagnostic) :
    atIndex c k table ds = atIndex c l table ds := by
  have hnil (n : Nat) (hn : c.words.length ≤ n) : Reads c table ds (atIndex c n table ds) [] :=
    ⟨n, rfl, (List.drop_eq_nil_iff.2 hn).symm⟩
  rw [(hnil k hk).eq_of_nil, (hnil l hl).eq_of_nil]

/-- A parser that reads on from a place or further on is at an index that is not smaller. -/
theorem exists_le_index {k : Nat} (h : Reads c table ds p ts) (hts : ts <:+ c.words.drop k) :
    ∃ l, k ≤ l ∧ p = atIndex c l table ds := by
  obtain ⟨l, rfl, rfl⟩ := h
  rcases Nat.le_total k l with hkl | hlk
  · exact ⟨l, hkl, rfl⟩
  · -- a smaller index is one behind the end of the text, where all indices are alike
    rcases Nat.lt_or_ge l c.words.length with hl | hl
    · have hlen := hts.length_le
      rw [List.length_drop, List.length_drop] at hlen
      exact ⟨l, by omega, rfl⟩
    · exact ⟨k, Nat.le_refl k, atIndex_eq_of_le hl (hl.trans hlk) table ds⟩

/-- A parser that looks at the token with some index is at that index. -/
theorem eq_atIndex {source : String} {file : Option String} {k : Nat}
    (h : Reads (.ofSource source file) table ds p ts) (hk : LooksAt source file k p) :
    p = atIndex (.ofSource source file) k table ds := by
  obtain ⟨l, rfl, rfl⟩ := h
  obtain rfl | ⟨hkle, hlle⟩ := hk.index_eq_or_le (looksAt_atIndex source file l table ds)
  · rfl
  · exact atIndex_eq_of_le hlle hkle table ds

/-- A parser that looks at the token with some index has the tokens from there on to read. -/
theorem of_looksAt {source : String} {file : Option String} {k : Nat}
    (h : Reads (.ofSource source file) table ds p ts) (hk : LooksAt source file k p) :
    Reads (.ofSource source file) table ds p ((Cursor.ofSource source file).words.drop k) :=
  ⟨k, h.eq_atIndex hk, rfl⟩

end Reads

/-- A kind that is not the next one is not taken, and the parser stays as it is. -/
theorem expect_of_error {p : Parser} {kind : TokenKind} {d : Diagnostic}
    (h : (p.expect kind).1 = .error d) : (p.expect kind).2 = p := by
  unfold expect at h ⊢
  split
  · rename_i hkind
    rw [if_pos hkind] at h
    cases h
  · rfl

/-- However a parser has been used, and whether or not its rules suit the kinds that they are
registered for, it looks at consecutive tokens of its text, and using it once more never moves it
back. A kind that is not there leaves it in its place. Only parsing a program changes the
diagnostics, and it only adds to them. -/
theorem looksAt_foldl_run (source : String) (file : Option String) (ops : List Operation) :
    let p := ops.foldl Operation.run (.ofCursor (.ofSource source file))
    (∃ k, LooksAt source file k p) ∧
      (∀ k, LooksAt source file k p →
        ∀ op : Operation, ∃ l, k ≤ l ∧ LooksAt source file l (op.run p)) ∧
      (∀ kind d, (p.expect kind).1 = .error d → (p.expect kind).2 = p) ∧
      (∀ op : Operation, ∃ new : List Diagnostic, (op.run p).diagnostics = p.diagnostics ++ new ∧
        (op ≠ .parseProgram → new = [])) := by
  intro p
  obtain ⟨table, ds, ts, hp⟩ : ∃ table ds ts, Reads (.ofSource source file) table ds p ts :=
    (Reads.ofCursor _).foldl_run ops
  refine ⟨?_, ?_, ?_, ?_⟩
  · obtain ⟨k, hk, -⟩ := hp
    exact ⟨k, hk ▸ looksAt_atIndex source file k table ds⟩
  · intro k hk op
    obtain ⟨table', ts', new, hrun, hts, -⟩ := (hp.of_looksAt hk).run op
    obtain ⟨l, hkl, hl⟩ := hrun.exists_le_index hts
    exact ⟨l, hkl, hl ▸ looksAt_atIndex source file l table' _⟩
  · intro kind d hd
    exact expect_of_error hd
  · intro op
    obtain ⟨table', ts', new, hrun, -, hnew⟩ := hp.run op
    refine ⟨new, ?_, hnew⟩
    rw [hrun.diagnostics_eq, hp.diagnostics_eq]

/-- Behind the end of a text, with a rule set for it, a parser stays at the end; in front of it a
kind that is not there is not taken. -/
theorem looksAt_foldl_run_truncated :
    let p := [.advance, .register .eof .integer].foldl Operation.run
      (.ofCursor (.ofSource "let x " none))
    LooksAt "let x " none 1 p ∧
      (∃ l, 1 ≤ l ∧ LooksAt "let x " none l (Operation.run p .parseProgram)) ∧
      (p.expect .assign).2 = p ∧
      (Operation.run p .parseLet).diagnostics = p.diagnostics ++ ([] : List Diagnostic) := by
  intro p
  obtain ⟨-, hforward, hexpect, hdiagnostics⟩ := looksAt_foldl_run "let x " none
    [.advance, .register .eof .integer]
  have hlooks : LooksAt "let x " none 1 p := ⟨by decide +kernel, by decide +kernel⟩
  obtain ⟨new, hnew, hnil⟩ := hdiagnostics .parseLet
  refine ⟨hlooks, hforward 1 hlooks _, ?_, ?_⟩
  · exact hexpect .assign ⟨.unexpectedToken .assign .endOfText, ⟨6, "shell"⟩⟩ (by rfl)
  · rw [hnew, hnil nofun]

end Parser

end MonkeyLang
