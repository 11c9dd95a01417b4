import Mathlib.Logic.Function.Iterate
import MonkeyLang.Token.Cursor

/-!
# Scanning a whole text

`scan` lists the tokens of a run of octets without a cursor: blanks are passed over and every
other octet begins the next lexeme. A cursor hands out exactly the tokens that `scan` finds in
front of it, and then the end of the text (`Cursor.tokens_eq`).
-/

namespace MonkeyLang

open Text

/-- The tokens of a text, its end left out; the first octet has the given offset. -/
def scan (offset : Nat) : List Char → List LocatedToken
  | [] => []
  | c :: cs =>
    if isBlank c then
      scan (offset + 1) cs
    else
      ⟨.ofLexeme (lexeme (c :: cs)), offset⟩ ::
        scan (offset + (lexeme (c :: cs)).length) ((c :: cs).drop (lexeme (c :: cs)).length)
termination_by cs => cs.length
decreasing_by
  · simp
  · have hpos := List.length_pos_iff.2 (lexeme_cons_ne_nil c cs)
    rw [List.length_drop, List.length_cons]
    omega

@[simp]
theorem scan_nil (offset : Nat) : scan offset [] = [] := by
  rw [scan]

theorem scan_cons_of_isBlank {c : Char} (hc : isBlank c) (offset : Nat) (cs : List Char) :
    scan offset (c :: cs) = scan (offset + 1) cs := by
  rw [scan, if_pos hc]

theorem scan_cons_of_not_isBlank {c : Char} (hc : ¬ isBlank c) (offset : Nat) (cs : List Char) :
    scan offset (c :: cs) =
      ⟨.ofLexeme (lexeme (c :: cs)), offset⟩ ::
        scan (offset + (lexeme (c :: cs)).length) ((c :: cs).drop (lexeme (c :: cs)).length) := by
  rw [scan, if_neg hc]

theorem scan_of_forall_isBlank {cs : List Char} (h : ∀ c ∈ cs, isBlank c) (offset : Nat) :
    scan offset cs = [] := by
  induction cs generalizing offset with
  | nil => exact scan_nil offset
  | cons c cs ih =>
    rw [scan_cons_of_isBlank (h c List.mem_cons_self)]
    exact ih (fun d hd => h d (List.mem_cons_of_mem c hd)) (offset + 1)

/-- The end of the text is not among the tokens that are scanned. -/
theorem kind_ne_eof_of_mem_scan {offset : Nat} {cs : List Char} {t : LocatedToken}
    (ht : t ∈ scan offset cs) : t.kind ≠ .eof := by
  fun_induction scan offset cs with
  | case1 => simp at ht
  | case2 offset c cs hc ih => exact ih ht
  | case3 offset c cs hc ih =>
    rcases List.mem_cons.1 ht with rfl | ht
    · intro heof
      exact lexeme_cons_ne_nil c cs ((TokenKind.ofLexeme_eq_eof_iff _).1 heof)
    · exact ih ht

/-! ### A cursor reads what is scanned -/

namespace Cursor

/-- The tokens in front of a cursor, the end of the text left out. -/
def words (c : Cursor) : List LocatedToken :=
  scan c.position c.rest

/-- The end of the text in front of a cursor. -/
def stop (c : Cursor) : LocatedToken :=
  ⟨.endOfText, c.position + c.rest.length⟩

/-- The token that reading gives, with its offset. -/
def nextLocated (c : Cursor) : LocatedToken :=
  ⟨c.next.1, c.next.2.tokenStart⟩

/-- The cursor at the end of the text, the end read. -/
def finish (c : Cursor) : Cursor :=
  { c with
    position := c.position + c.rest.length
    rest := []
    tokenStart := c.position + c.rest.length }

theorem next_of_rest_nil {c : Cursor} (h : c.rest = []) :
    c.next = (.endOfText, c.markStart) := by
  obtain ⟨source, file, position, rest, start⟩ := c
  subst h
  rfl

theorem next_of_isBlank {c : Cursor} {x : Char} {cs : List Char} (h : c.rest = x :: cs)
    (hx : isBlank x) : c.next = (c.advance 1).next := by
  obtain ⟨source, file, position, rest, start⟩ := c
  subst h
  simp [next, skipBlanks, advance, markStart, takeLexeme, hx, Nat.add_assoc, Nat.add_comm 1]

theorem next_of_not_isBlank {c : Cursor} {x : Char} {cs : List Char} (h : c.rest = x :: cs)
    (hx : ¬ isBlank x) : c.next = c.markStart.takeLexeme := by
  obtain ⟨source, file, position, rest, start⟩ := c
  subst h
  simp [next, skipBlanks, advance, hx]

theorem finish_advance {c : Cursor} {n : Nat} (h : n ≤ c.rest.length) :
    (c.advance n).finish = c.finish := by
  have hlen : c.position + n + (c.rest.length - n) = c.position + c.rest.length := by omega
  simp [finish, advance, hlen]

/-- Reading gives the first of the tokens in front of a cursor, leaves the others there and does
not move the end of the text. -/
theorem next_spec (c : Cursor) :
    c.nextLocated = c.words.headD c.stop ∧ c.next.2.words = c.words.tail ∧
      c.next.2.finish = c.finish := by
  induction hrest : c.rest generalizing c with
  | nil =>
    simp [nextLocated, next_of_rest_nil hrest, words, stop, finish, markStart, hrest]
  | cons x cs ih =>
    by_cases hx : isBlank x
    · have hstep := ih (c.advance 1) (by simp [advance, hrest])
      have hwords : (c.advance 1).words = c.words := by
        simp [words, advance, hrest, scan_cons_of_isBlank hx]
      have hfinish : (c.advance 1).finish = c.finish := finish_advance (by simp [hrest])
      have hstop : (c.advance 1).stop = c.stop := by
        simp only [stop, advance, hrest, List.drop_succ_cons, List.drop_zero, List.length_cons]
        rw [Nat.add_assoc, Nat.add_comm 1]
      have hnext : (c.advance 1).nextLocated = c.nextLocated := by
        rw [nextLocated, nextLocated, next_of_isBlank hrest hx]
      rw [next_of_isBlank hrest hx, ← hnext, ← hwords, ← hfinish, ← hstop]
      exact hstep
    · have hle := length_lexeme_le (x :: cs)
      refine ⟨?_, ?_, ?_⟩
      · simp [nextLocated, next_of_not_isBlank hrest hx, takeLexeme, markStart, advance, words, hrest,
          scan_cons_of_not_isBlank hx]
      · simp [next_of_not_isBlank hrest hx, takeLexeme, markStart, advance, words, hrest,
          scan_cons_of_not_isBlank hx]
      · rw [next_of_not_isBlank hrest hx]
        exact finish_advance (c := c.markStart) (by simpa [markStart, hrest] using hle)

theorem nextLocated_eq (c : Cursor) : c.nextLocated = c.words.headD c.stop :=
  c.next_spec.1

theorem words_next (c : Cursor) : c.next.2.words = c.words.tail :=
  c.next_spec.2.1

@[simp]
theorem finish_next (c : Cursor) : c.next.2.finish = c.finish :=
  c.next_spec.2.2

@[simp]
theorem stop_next (c : Cursor) : c.next.2.stop = c.stop := by
  have h := congrArg Cursor.position c.finish_next
  exact congrArg (LocatedToken.mk .endOfText) h

theorem kind_ne_eof_of_mem_words {c : Cursor} {t : LocatedToken} (ht : t ∈ c.words) :
    t.kind ≠ .eof :=
  kind_ne_eof_of_mem_scan ht

/-- Reading gives the end of the text where no token is left, and nowhere else. -/
theorem kind_next_eq_eof_iff (c : Cursor) : c.next.1.kind = .eof ↔ c.words = [] := by
  have hnext : c.nextLocated.kind = c.next.1.kind := rfl
  rw [← hnext, nextLocated_eq]
  cases hwords : c.words with
  | nil => simp [stop, Token.endOfText]
  | cons t ts =>
    have ht : t.kind ≠ .eof := kind_ne_eof_of_mem_words (by rw [hwords]; exact List.mem_cons_self)
    simp [ht]

/-- A cursor hands out the tokens in front of it, and then the end of the text. -/
theorem tokens_eq (c : Cursor) : c.tokens = c.words ++ [c.stop] := by
  fun_induction tokens c with
  | case1 c located heof =>
    have hwords : c.words = [] := (kind_next_eq_eof_iff c).1 heof
    have hlocated : located = c.stop := by
      rw [show located = c.nextLocated from rfl, nextLocated_eq, hwords, List.headD_nil]
    rw [hwords, hlocated, List.nil_append]
  | case2 c located heof ih =>
    have hwords : c.words ≠ [] := by
      intro hnil
      exact heof ((kind_next_eq_eof_iff c).2 hnil)
    obtain ⟨t, ts, hts⟩ := List.exists_cons_of_ne_nil hwords
    have hlocated : located = t := by
      rw [show located = c.nextLocated from rfl, nextLocated_eq, hts, List.headD_cons]
    rw [ih, words_next, stop_next, hts, hlocated, List.tail_cons, List.cons_append]

/-- Where no token is left, reading moves the cursor to the end of the text. -/
theorem next_of_words_nil {c : Cursor} (h : c.words = []) : c.next.2 = c.finish := by
  induction hrest : c.rest generalizing c with
  | nil => simp [next_of_rest_nil hrest, finish, markStart, hrest]
  | cons x cs ih =>
    by_cases hx : isBlank x
    · have hwords : (c.advance 1).words = [] := by
        rw [← h]
        simp [words, advance, hrest, scan_cons_of_isBlank hx]
      rw [next_of_isBlank hrest hx, ih hwords (by simp [advance, hrest])]
      exact finish_advance (by simp [hrest])
    · rw [words, hrest, scan_cons_of_not_isBlank hx] at h
      exact absurd h (List.cons_ne_nil _ _)

/-! ### The tokens that reading gives one after the other -/

/-- The cursor behind the next `n` tokens. -/
def after (c : Cursor) (n : Nat) : Cursor :=
  (fun c => c.next.2)^[n] c

/-- The token with index `n` in front of a cursor; behind the last word it is always the end of
the text. -/
def stream (c : Cursor) (n : Nat) : LocatedToken :=
  (c.after n).nextLocated

theorem after_succ (c : Cursor) (n : Nat) : c.after (n + 1) = (c.after n).next.2 :=
  Function.iterate_succ_apply' _ n c

theorem words_after (c : Cursor) (n : Nat) : (c.after n).words = c.words.drop n := by
  induction n with
  | zero => rfl
  | succ n ih => rw [after_succ, words_next, ih, List.tail_drop]

theorem finish_after (c : Cursor) (n : Nat) : (c.after n).finish = c.finish := by
  induction n with
  | zero => rfl
  | succ n ih => rw [after_succ, finish_next, ih]

theorem file_after (c : Cursor) (n : Nat) : (c.after n).file = c.file := by
  have h := congrArg Cursor.file (c.finish_after n)
  exact h

theorem source_after (c : Cursor) (n : Nat) : (c.after n).source = c.source := by
  have h := congrArg Cursor.source (c.finish_after n)
  exact h

theorem stop_after (c : Cursor) (n : Nat) : (c.after n).stop = c.stop := by
  induction n with
  | zero => rfl
  | succ n ih => rw [after_succ, stop_next, ih]

theorem stream_eq (c : Cursor) (n : Nat) : c.stream n = (c.words.drop n).headD c.stop := by
  rw [stream, nextLocated_eq, words_after, stop_after]

/-- Behind the end of the text every cursor is the same. -/
theorem after_eq_finish {c : Cursor} {n : Nat} (h : c.words.length < n) :
    c.after n = c.finish := by
  obtain ⟨m, rfl⟩ := Nat.exists_eq_add_of_lt h
  have hwords : (c.after (c.words.length + m)).words = [] := by
    rw [words_after, List.drop_eq_nil_iff]
    omega
  rw [after_succ, next_of_words_nil hwords, finish_after]

end Cursor

end MonkeyLang
