import MonkeyLang.Proofs.Token.Session

/-!
# The end of the text

However a reader was used, it comes to the end of the text after no more tokens than there are
octets in front of it, and then stays there: every further read gives the end of the text and
leaves the reader as it is. Reading token by token, collecting the items of a reader and
`tokenize` give the same tokens (`run?_ends`).
-/

namespace MonkeyLang

open Text

namespace Cursor

variable {source : String} {file : Option String} {c : Cursor}

/-! ### The tokens in front of a cursor -/

/-- Every token takes an octet. -/
theorem length_scan_le (offset : Nat) (cs : List Char) : (scan offset cs).length ≤ cs.length := by
  fun_induction scan offset cs with
  | case1 => exact Nat.le_refl 0
  | case2 offset c cs hc ih => exact Nat.le_succ_of_le ih
  | case3 offset c cs hc ih =>
    have hpos := List.length_pos_iff.2 (lexeme_cons_ne_nil c cs)
    rw [List.length_drop, List.length_cons] at ih
    rw [List.length_cons, List.length_cons]
    omega

theorem map_stream_range (c : Cursor) :
    (List.range c.words.length).map c.stream = c.words := by
  refine List.ext_getElem (by simp) fun n _ hn => ?_
  rw [List.getElem_map, List.getElem_range, stream_eq, List.drop_eq_getElem_cons hn,
    List.headD_cons]

/-- One more token than there are words is the end of the text. -/
theorem map_stream_range_succ (c : Cursor) :
    (List.range (c.words.length + 1)).map c.stream = c.tokens := by
  rw [List.range_succ, List.map_append, map_stream_range, tokens_eq, List.map_singleton, stream_eq,
    List.drop_length, List.headD_nil]

theorem next?_of_words_cons {t : LocatedToken} {ts : List LocatedToken} (h : c.words = t :: ts) :
    c.next?.1 = some t.token ∧ c.next?.2.words = ts := by
  have hnext : c.next.1 = t.token := by
    have hlocated : c.nextLocated = t := by rw [nextLocated_eq, h, List.headD_cons]
    exact congrArg LocatedToken.token hlocated
  have hkind : c.next.1.kind ≠ .eof := by
    intro heof
    rw [(kind_next_eq_eof_iff c).1 heof] at h
    cases h
  refine ⟨?_, ?_⟩
  · rw [next?, if_neg hkind, hnext]
  · rw [next?, words_next, h, List.tail_cons]

/-- Where no token is left, reading gives the end of the text and goes there. -/
theorem next_eq_of_words_nil (h : c.words = []) : c.next = (.endOfText, c.finish) := by
  have hlocated : c.nextLocated = c.stop := by rw [nextLocated_eq, h, List.headD_nil]
  exact Prod.ext (congrArg LocatedToken.token hlocated) (next_of_words_nil h)

theorem next?_eq_of_words_nil (h : c.words = []) : c.next? = (none, c.finish) := by
  rw [next?, next_eq_of_words_nil h]
  rfl

theorem words_finish (c : Cursor) : c.finish.words = [] :=
  scan_nil _

theorem finish_finish (c : Cursor) : c.finish.finish = c.finish := rfl

theorem drain_fst (c : Cursor) : c.drain.1 = c.words.map LocatedToken.token := by
  induction hwords : c.words generalizing c with
  | nil =>
    have hitem : ¬ c.next?.1.isSome := by simp [next?_eq_of_words_nil hwords]
    rw [drain, dif_neg hitem]
    rfl
  | cons t ts ih =>
    obtain ⟨hitem, hlater⟩ := next?_of_words_cons hwords
    have hsome : c.next?.1.isSome := by simp [hitem]
    have hget : c.next?.1.get hsome = t.token := Option.get_of_eq_some hsome hitem
    rw [drain, dif_pos hsome, hget]
    exact congrArg (t.token :: ·) (ih _ hlater)

namespace StandsIn

theorem length_rest (h : c.StandsIn source file) :
    c.rest.length = source.utf8ByteSize - c.position := by
  rw [h.rest_eq, List.length_drop, length_octets_eq_utf8ByteSize]

theorem length_words_le (h : c.StandsIn source file) :
    c.words.length ≤ source.utf8ByteSize - c.position :=
  h.length_rest ▸ length_scan_le c.position c.rest

/-- The end of the text is behind the source, and not in front of the cursor. -/
theorem position_finish (h : c.StandsIn source file) :
    c.finish.position = max source.utf8ByteSize c.position := by
  have hposition : c.finish.position = c.position + c.rest.length := rfl
  rw [hposition, h.length_rest]
  omega

theorem after (h : c.StandsIn source file) (n : Nat) : (c.after n).StandsIn source file := by
  induction n with
  | zero => exact h
  | succ n ih =>
    rw [after_succ]
    exact ih.next

theorem finish (h : c.StandsIn source file) : c.finish.StandsIn source file := by
  refine ⟨h.source_eq, h.file_eq, ?_, Nat.le_refl _⟩
  refine (List.drop_eq_nil_of_le ?_).symm
  rw [h.position_finish, length_octets_eq_utf8ByteSize]
  exact Nat.le_max_left _ _

end StandsIn

end Cursor

/-! ### A reader at the end -/

/-- Reading gives the end of the text, and the reader behind it stays as it is. -/
structure Reader.Ends (r e : Reader) : Prop where
  next?_eq : r.next? = some (⟨.eof, ""⟩, e)
  nextItem?_eq : r.nextItem? = some (none, e)
  tokenStart_eq : e.tokenStart = max r.source.utf8ByteSize r.position
  next?_again : e.next? = some (⟨.eof, ""⟩, e)
  nextItem?_again : e.nextItem? = some (none, e)

/-- Read until there is no next one, the items of a reader are these tokens. -/
inductive Reader.Collects : Reader → List Token → Reader → Prop
  | done {r e : Reader} (h : r.nextItem? = some (none, e)) : Collects r [] e
  | item {r later e : Reader} {t : Token} {ts : List Token}
      (h : r.nextItem? = some (some t, later)) (hts : Collects later ts e) : Collects r (t :: ts) e

namespace Cursor.StandsIn

variable {source : String} {file : Option String} {c : Cursor}

theorem ends_reader (h : c.StandsIn source file) (hwords : c.words = []) :
    c.reader.Ends c.finish.reader where
  next?_eq := by rw [h.next?_reader, next_eq_of_words_nil hwords]; rfl
  nextItem?_eq := by rw [h.nextItem?_reader, next?_eq_of_words_nil hwords]
  tokenStart_eq := h.position_finish.trans (by rw [reader, h.source_eq])
  next?_again := by rw [h.finish.next?_reader, next_eq_of_words_nil c.words_finish]; rfl
  nextItem?_again := by
    rw [h.finish.nextItem?_reader, next?_eq_of_words_nil c.words_finish, finish_finish]

theorem collects_reader (h : c.StandsIn source file) :
    c.reader.Collects (c.words.map LocatedToken.token) c.finish.reader := by
  induction hwords : c.words generalizing c with
  | nil => exact .done (h.ends_reader hwords).nextItem?_eq
  | cons t ts ih =>
    obtain ⟨hitem, hlater⟩ := next?_of_words_cons hwords
    have hread := h.nextItem?_reader
    rw [hitem] at hread
    have hrest := ih h.next hlater
    rw [finish_next] at hrest
    exact .item hread hrest

/-- A cursor comes to the end of the text after the words in front of it. -/
theorem exists_ends_reader (h : c.StandsIn source file) :
    ∃ ts r e, c.reader.tokens? ts.length = some (ts, r) ∧
      ts.length ≤ source.utf8ByteSize - c.position ∧ (∀ t ∈ ts, t.kind ≠ .eof) ∧ r.Ends e ∧
        c.reader.Collects (ts.map LocatedToken.token) e := by
  have hwords : (c.after c.words.length).words = [] := by rw [words_after, List.drop_length]
  have hends := (h.after c.words.length).ends_reader hwords
  rw [finish_after] at hends
  refine ⟨c.words, (c.after c.words.length).reader, c.finish.reader, ?_, h.length_words_le, ?_,
    hends, h.collects_reader⟩
  · rw [h.tokens?_reader, map_stream_range]
  · exact fun t ht => kind_ne_eof_of_mem_words ht

theorem ends_reader_of_kind_eq {t : Token} {e : Reader} (h : c.StandsIn source file)
    (hnext : c.reader.next? = some (t, e)) (ht : t.kind = .eof) : c.reader.Ends e := by
  rw [h.next?_reader, Option.some_inj, Prod.mk.injEq] at hnext
  obtain ⟨rfl, rfl⟩ := hnext
  have hwords := (kind_next_eq_eof_iff c).1 ht
  rw [next_of_words_nil hwords]
  exact h.ends_reader hwords

end Cursor.StandsIn

theorem dropLast_tokenize (source : String) (file : Option String) :
    (tokenize source file).dropLast =
      (Cursor.ofSource source file).words.map LocatedToken.token := by
  rw [tokenize_eq, List.dropLast_concat, Cursor.words, Cursor.ofSource]

/-- The tokens of a fresh reader, read one by one or collected as items, are those of `tokenize`. -/
theorem exists_collects_ofSource (source : String) (file : Option String) :
    ∃ ts r, (Reader.ofSource source file).tokens? (tokenize source file).length = some (ts, r) ∧
      ts.map LocatedToken.token = tokenize source file ∧
        (Reader.ofSource source file).Collects (tokenize source file).dropLast r := by
  have hstands := Cursor.standsIn_ofSource source file
  have hlength : (tokenize source file).length = (Cursor.ofSource source file).words.length + 1 := by
    rw [tokenize, List.length_map, Cursor.tokens_eq, List.length_append, List.length_singleton]
  have hread := hstands.tokens?_reader (tokenize source file).length
  have hcollects := hstands.collects_reader
  rw [hlength, Cursor.map_stream_range_succ, Cursor.after_eq_finish (Nat.lt_succ_self _),
    ← hlength, Cursor.reader_ofSource] at hread
  rw [Cursor.reader_ofSource, ← dropLast_tokenize] at hcollects
  exact ⟨_, _, hread, rfl, hcollects⟩

/-- However a reader is used, it comes to the end of the text after at most one token for each octet
in front of it, and reads nothing else from there on; and the items of a fresh reader, like the
tokens it reads one by one, are those of `tokenize`. -/
theorem run?_ends (source : String) (file : Option String) (uses : List Use) :
    (∃ s, Reader.run? source file uses = some s ∧
      (∃ ts r e, s.current.tokens? ts.length = some (ts, r) ∧
        ts.length ≤ source.utf8ByteSize - s.current.position ∧ (∀ t ∈ ts, t.kind ≠ .eof) ∧
          r.Ends e ∧ s.current.Collects (ts.map LocatedToken.token) e) ∧
      ∀ t e, s.current.next? = some (t, e) → t.kind = .eof → s.current.Ends e) ∧
    (∃ ts r, (Reader.ofSource source file).tokens? (tokenize source file).length = some (ts, r) ∧
      ts.map LocatedToken.token = tokenize source file ∧
        (Reader.ofSource source file).Collects (tokenize source file).dropLast r) ∧
    tokenize source file = (tokenize source file).dropLast ++ [⟨.eof, ""⟩] ∧
    (Cursor.ofSource source file).drain.1 = (tokenize source file).dropLast := by
  have hstands := (all_run source file uses).1
  refine ⟨⟨_, run?_eq source file uses, hstands.exists_ends_reader, ?_⟩,
    exists_collects_ofSource source file, ?_, ?_⟩
  · exact fun t e hnext ht => hstands.ends_reader_of_kind_eq hnext ht
  · rw [tokenize_eq, List.dropLast_concat, Token.endOfText]
  · rw [Cursor.drain_fst, dropLast_tokenize]

/-- Two octets past the end of `a`, a reader ends where it is. -/
theorem run?_ends_past_end :
    ∃ s e, Reader.run? "a" none [.readOctet, .readOctet, .readOctet] = some s ∧
      s.current.Ends e ∧ e.tokenStart = 3 := by
  obtain ⟨⟨s, hs, -, hends⟩, -⟩ := run?_ends "a" none [.readOctet, .readOctet, .readOctet]
  have hnext : s.current.next? =
      some (⟨.eof, ""⟩, ⟨"a", "shell", 3, 4, none, 3⟩) := by
    have hrun : (Reader.run? "a" none [.readOctet, .readOctet, .readOctet]).map Session.current =
        some ⟨"a", "shell", 3, 4, none, 0⟩ := by decide +kernel
    rw [hs, Option.map_some, Option.some_inj] at hrun
    rw [hrun]
    decide +kernel
  exact ⟨s, _, hs, hends _ _ hnext rfl, rfl⟩

end MonkeyLang
