import Mathlib.Data.List.Infix
import MonkeyLang.Proofs.Text.Octets
import MonkeyLang.Proofs.Token.Lexeme
import MonkeyLang.Proofs.Token.Scan

/-!
# The tokens of a text tile it

A token spans as many octets as its literal has characters. The spans of the tokens of a text
follow one another, hold the octets that the literals say, and leave out the blanks and nothing
else (`tiles_tokens`). So the literals, one after the other, are the text without its blanks.
-/

namespace MonkeyLang

open Text

namespace LocatedToken

/-- The offset behind the last octet of a token. -/
def finish (t : LocatedToken) : Nat :=
  t.offset + t.token.literal.length

theorem offset_le_finish (t : LocatedToken) : t.offset ≤ t.finish :=
  Nat.le_add_right _ _

/-- The octet with the given offset belongs to the token. -/
def Covers (t : LocatedToken) (i : Nat) : Prop :=
  t.offset ≤ i ∧ i < t.finish

instance (t : LocatedToken) (i : Nat) : Decidable (t.Covers i) :=
  inferInstanceAs (Decidable (_ ∧ _))

end LocatedToken

@[simp]
theorem finish_ofLexeme (cs : List Char) (offset : Nat) :
    LocatedToken.finish ⟨.ofLexeme cs, offset⟩ = offset + cs.length := by
  simp [LocatedToken.finish, Token.ofLexeme]

@[simp]
theorem finish_endOfText (offset : Nat) :
    LocatedToken.finish ⟨.endOfText, offset⟩ = offset := by
  simp [LocatedToken.finish, Token.endOfText]

/-! ### Where scanned tokens stand -/

/-- Every token is made of the lexeme that stands at its offset. -/
theorem exists_drop_of_mem_scan {offset : Nat} {cs : List Char} {t : LocatedToken}
    (ht : t ∈ scan offset cs) :
    ∃ n c rest, t.offset = offset + n ∧ cs.drop n = c :: rest ∧ ¬ isBlank c ∧
      t.token = .ofLexeme (lexeme (c :: rest)) := by
  fun_induction scan offset cs with
  | case1 => cases ht
  | case2 offset b cs hb ih =>
    obtain ⟨n, c, rest, hoffset, hdrop, hc, htoken⟩ := ih ht
    exact ⟨n + 1, c, rest, by omega, hdrop, hc, htoken⟩
  | case3 offset b cs hb ih =>
    rcases List.mem_cons.1 ht with rfl | ht
    · exact ⟨0, b, cs, rfl, rfl, hb, rfl⟩
    · obtain ⟨n, c, rest, hoffset, hdrop, hc, htoken⟩ := ih ht
      refine ⟨(lexeme (b :: cs)).length + n, c, rest, by omega, ?_, hc, htoken⟩
      rw [← List.drop_drop, hdrop]

theorem pairwise_finish_le_scan (offset : Nat) (cs : List Char) :
    (scan offset cs).Pairwise fun t u => t.finish ≤ u.offset := by
  fun_induction scan offset cs with
  | case1 => exact List.Pairwise.nil
  | case2 offset c cs hc ih => exact ih
  | case3 offset c cs hc ih =>
    refine List.pairwise_cons.2 ⟨?_, ih⟩
    intro u hu
    obtain ⟨n, -, -, hoffset, -⟩ := exists_drop_of_mem_scan hu
    rw [finish_ofLexeme]
    omega

/-- No octet that is not a blank is passed over. -/
theorem exists_covers_scan (offset : Nat) {i : Nat} {cs : List Char} {d : Char}
    (hi : cs[i]? = some d) (hd : ¬ isBlank d) : ∃ t ∈ scan offset cs, t.Covers (offset + i) := by
  fun_induction scan offset cs generalizing i with
  | case1 => cases hi
  | case2 offset c cs hc ih =>
    cases i with
    | zero =>
      obtain rfl : c = d := Option.some.inj hi
      exact absurd hc hd
    | succ i =>
      obtain ⟨t, ht, hcovers⟩ := ih hi
      refine ⟨t, ht, ?_⟩
      rwa [Nat.add_assoc, Nat.add_comm 1] at hcovers
  | case3 offset c cs hc ih =>
    by_cases hlt : i < (lexeme (c :: cs)).length
    · refine ⟨_, List.mem_cons_self, Nat.le_add_right offset i, ?_⟩
      rw [finish_ofLexeme]
      omega
    · -- the octet is one of those behind the lexeme
      obtain ⟨j, rfl⟩ := Nat.exists_eq_add_of_le (Nat.le_of_not_lt hlt)
      obtain ⟨t, ht, hcovers⟩ := ih (i := j) (by rwa [List.getElem?_drop])
      refine ⟨t, List.mem_cons_of_mem _ ht, ?_⟩
      rwa [Nat.add_assoc] at hcovers

/-- The literals of the tokens, one after the other, are the text without its blanks. -/
theorem flatMap_literal_scan (offset : Nat) (cs : List Char) :
    (scan offset cs).flatMap (fun t => t.token.literal.toList) = cs.filter (!isBlank ·) := by
  fun_induction scan offset cs with
  | case1 => rfl
  | case2 offset c cs hc ih => rw [ih, List.filter_cons_of_neg (by simp [hc])]
  | case3 offset c cs hc ih =>
    have hlexeme : (lexeme (c :: cs)).filter (!isBlank ·) = lexeme (c :: cs) := by
      rw [List.filter_eq_self]
      intro d hd
      simpa using not_isBlank_of_mem_lexeme hc hd
    have hsplit : lexeme (c :: cs) ++ (c :: cs).drop (lexeme (c :: cs)).length = c :: cs :=
      List.prefix_iff_eq_append.1 (lexeme_prefix_self (c :: cs))
    rw [List.flatMap_cons, ih]
    conv_rhs => rw [← hsplit, List.filter_append, hlexeme]
    simp [Token.ofLexeme]

/-! ### Tilings -/

/-- Tokens in a row that take up the octets of a text, blanks apart. -/
structure Tiles (cs : List Char) (ts : List LocatedToken) : Prop where
  /-- The end of the text comes last, behind its last octet, and nowhere else. -/
  last : ∃ ws, ts = ws ++ [⟨.endOfText, cs.length⟩] ∧ ∀ t ∈ ws, t.kind ≠ .eof
  inside : ∀ t ∈ ts, t.finish ≤ cs.length
  increasing : ts.Pairwise fun t u => t.offset < u.offset
  disjoint : ts.Pairwise fun t u => t.finish ≤ u.offset
  /-- The characters of a literal are the octets of its span. -/
  literal : ∀ t ∈ ts, ∀ i < t.token.literal.length, t.token.literal.toList[i]? = cs[t.offset + i]?
  /-- The blanks are the octets outside all spans. -/
  blank : ∀ (i : Nat) (c : Char), cs[i]? = some c → (isBlank c ↔ ∀ t ∈ ts, ¬ t.Covers i)

section

variable {cs : List Char} {t : LocatedToken}

/-- The literal of a token stands in the text at the offset of the token. -/
theorem literal_prefix_of_mem_scan (ht : t ∈ scan 0 cs) :
    t.token.literal.toList <+: cs.drop t.offset := by
  obtain ⟨n, c, rest, hoffset, hdrop, -, htoken⟩ := exists_drop_of_mem_scan ht
  rw [hoffset, Nat.zero_add, hdrop, htoken, Token.ofLexeme, String.toList_ofList]
  exact lexeme_prefix_self _

theorem literal_ne_nil_of_mem_scan {offset : Nat} (ht : t ∈ scan offset cs) :
    t.token.literal.toList ≠ [] := by
  obtain ⟨n, c, rest, -, -, -, htoken⟩ := exists_drop_of_mem_scan ht
  rw [htoken, Token.ofLexeme, String.toList_ofList]
  exact lexeme_cons_ne_nil c rest

theorem offset_lt_finish_of_mem_scan {offset : Nat} (ht : t ∈ scan offset cs) :
    t.offset < t.finish := by
  have hpos := List.length_pos_iff.2 (literal_ne_nil_of_mem_scan ht)
  rw [String.length_toList] at hpos
  rw [LocatedToken.finish]
  omega

theorem finish_le_length_of_mem_scan (ht : t ∈ scan 0 cs) : t.finish ≤ cs.length := by
  have hlen := (literal_prefix_of_mem_scan ht).length_le
  have hpos := List.length_pos_iff.2 (literal_ne_nil_of_mem_scan ht)
  rw [String.length_toList] at hlen hpos
  rw [List.length_drop] at hlen
  rw [LocatedToken.finish]
  omega

theorem getElem?_literal_of_mem_scan (ht : t ∈ scan 0 cs) {i : Nat}
    (hi : i < t.token.literal.length) : t.token.literal.toList[i]? = cs[t.offset + i]? := by
  obtain ⟨rest, hrest⟩ := literal_prefix_of_mem_scan ht
  rw [← List.getElem?_drop, ← hrest, List.getElem?_append_left]
  rwa [String.length_toList]

/-- No token reaches over a blank. -/
theorem not_covers_of_isBlank {i : Nat} {c : Char} (hi : cs[i]? = some c) (hc : isBlank c)
    (ht : t ∈ scan 0 cs) : ¬ t.Covers i := by
  rintro ⟨hle, hlt⟩
  obtain ⟨j, rfl⟩ := Nat.exists_eq_add_of_le hle
  have hj : t.token.literal.toList[j]? = some c := by
    rw [getElem?_literal_of_mem_scan ht (Nat.lt_of_add_lt_add_left hlt), hi]
  have hmem : c ∈ t.token.literal.toList := List.mem_of_getElem? hj
  obtain ⟨n, d, rest, -, -, hd, htoken⟩ := exists_drop_of_mem_scan ht
  rw [htoken, Token.ofLexeme, String.toList_ofList] at hmem
  exact not_isBlank_of_mem_lexeme hd hmem hc

end

theorem tiles_scan (cs : List Char) : Tiles cs (scan 0 cs ++ [⟨.endOfText, cs.length⟩]) where
  last := ⟨scan 0 cs, rfl, fun _ ht => kind_ne_eof_of_mem_scan ht⟩
  inside := by
    intro t ht
    rcases List.mem_append.1 ht with ht | ht
    · exact finish_le_length_of_mem_scan ht
    · rw [List.mem_singleton.1 ht, finish_endOfText]
  increasing := by
    refine List.pairwise_append.2 ⟨?_, List.pairwise_singleton _ _, ?_⟩
    · refine (pairwise_finish_le_scan 0 cs).imp_of_mem fun ht _ hle => ?_
      exact Nat.lt_of_lt_of_le (offset_lt_finish_of_mem_scan ht) hle
    · intro t ht u hu
      rw [List.mem_singleton.1 hu]
      exact Nat.lt_of_lt_of_le (offset_lt_finish_of_mem_scan ht) (finish_le_length_of_mem_scan ht)
  disjoint := by
    refine List.pairwise_append.2 ⟨pairwise_finish_le_scan 0 cs, List.pairwise_singleton _ _, ?_⟩
    intro t ht u hu
    rw [List.mem_singleton.1 hu]
    exact finish_le_length_of_mem_scan ht
  literal := by
    intro t ht i hi
    rcases List.mem_append.1 ht with ht | ht
    · exact getElem?_literal_of_mem_scan ht hi
    · rw [List.mem_singleton.1 ht] at hi
      cases hi
  blank := by
    intro i c hi
    constructor
    · intro hc t ht
      rcases List.mem_append.1 ht with ht | ht
      · exact not_covers_of_isBlank hi hc ht
      · rw [List.mem_singleton.1 ht, LocatedToken.Covers, finish_endOfText]
        exact fun h => Nat.not_lt.2 h.1 h.2
    · intro hnone
      by_contra hc
      obtain ⟨t, ht, hcovers⟩ := exists_covers_scan 0 hi hc
      rw [Nat.zero_add] at hcovers
      exact hnone t (List.mem_append_left _ ht) hcovers

/-- The tokens that a cursor hands out are those that scanning finds, and the end of the text. -/
theorem tokens_ofSource (source : String) (file : Option String) :
    (Cursor.ofSource source file).tokens =
      scan 0 (octets source) ++ [⟨.endOfText, (octets source).length⟩] := by
  rw [Cursor.tokens_eq, Cursor.words, Cursor.stop, Cursor.ofSource, Nat.zero_add]

theorem tokenize_eq (source : String) (file : Option String) :
    tokenize source file =
      (scan 0 (octets source)).map LocatedToken.token ++ [.endOfText] := by
  rw [tokenize, tokens_ofSource, List.map_append]
  rfl

/-- The tokens of a source text tile its bytes, and the bytes that are no blanks can be read off
their literals. -/
theorem tiles_tokens (source : String) (file : Option String) :
    let bytes := source.toByteArray.data.toList
    Tiles (bytes.map Char.ofUInt8) (Cursor.ofSource source file).tokens ∧
      (tokenize source file).flatMap (fun t => t.literal.toList) =
        (bytes.filter fun b => !isBlank (Char.ofUInt8 b)).map Char.ofUInt8 := by
  intro bytes
  have hoctets : bytes.map Char.ofUInt8 = octets source := (octets_eq_map_toByteArray source).symm
  constructor
  · rw [hoctets, tokens_ofSource]
    exact tiles_scan _
  · have hfilter : (bytes.filter fun b => !isBlank (Char.ofUInt8 b)).map Char.ofUInt8 =
        (bytes.map Char.ofUInt8).filter (!isBlank ·) := by
      rw [List.filter_map]
      rfl
    rw [hfilter, hoctets, ← flatMap_literal_scan 0, tokenize, tokens_ofSource, List.flatMap_map,
      List.flatMap_append]
    simp [Token.endOfText]

end MonkeyLang
