import MonkeyLang.Proofs.Parser.Isolation
import MonkeyLang.Proofs.Token.Boundary

/-!
# Layout

A text may be cut wherever no token reaches over the cut: its two pieces are scanned by themselves
(`scan_append_of_not_straddles`). Blanks put into such a place are passed over, so they change
neither the tokens of a text nor its statements, and the diagnostics behind them stand further on
(`parse_insert_blanks`).
-/

namespace MonkeyLang

open Text

/-! ### Texts cut between tokens -/

theorem takeWhile_append_of_length_le {p : Char → Bool} {cs ds : List Char}
    (h : ((cs ++ ds).takeWhile p).length ≤ cs.length) :
    (cs ++ ds).takeWhile p = cs.takeWhile p := by
  rw [List.takeWhile_append] at h ⊢
  split
  · rename_i hcs
    have hall : cs.takeWhile p = cs := (List.takeWhile_prefix p).eq_of_length hcs
    rw [if_pos hcs, List.length_append] at h
    have hds : ds.takeWhile p = [] := List.length_eq_zero_iff.1 (by omega)
    rw [hds, hall, List.append_nil]
  · rfl

/-- A lexeme that does not reach over the end of a text is a lexeme of the text by itself. -/
theorem lexeme_append_of_length_le {cs ds : List Char} (hcs : cs ≠ [])
    (h : (lexeme (cs ++ ds)).length ≤ cs.length) : lexeme (cs ++ ds) = lexeme cs := by
  obtain ⟨c, cs, rfl⟩ := List.exists_cons_of_ne_nil hcs
  rw [List.cons_append] at h ⊢
  by_cases hletter : isLetter c
  · simp only [lexeme, if_pos hletter, List.length_cons, Nat.add_le_add_iff_right] at h ⊢
    rw [takeWhile_append_of_length_le h]
  · by_cases hdigit : c.isDigit
    · simp only [lexeme, if_neg hletter, if_pos hdigit, List.length_cons,
        Nat.add_le_add_iff_right] at h ⊢
      rw [takeWhile_append_of_length_le h]
    · simp only [lexeme, if_neg hletter, if_neg hdigit] at h ⊢
      cases cs with
      | nil =>
        have halone : ¬ (isPairHead c ∧ ([] : List Char).head? = some '=') := by simp
        rw [if_neg halone]
        split at h
        · exact absurd h (Nat.not_succ_le_self 1)
        · exact if_neg ‹_›
      | cons d cs => rfl

/-- The token reaches over the place with the given offset. -/
def LocatedToken.Straddles (t : LocatedToken) (p : Nat) : Prop :=
  t.offset < p ∧ p < t.finish

/-- Where no token reaches over the place between two texts, each is scanned by itself. -/
theorem scan_append_of_not_straddles {offset : Nat} {cs ds : List Char}
    (h : ∀ t ∈ scan offset (cs ++ ds), ¬ t.Straddles (offset + cs.length)) :
    scan offset (cs ++ ds) = scan offset cs ++ scan (offset + cs.length) ds := by
  fun_induction scan offset cs with
  | case1 => rfl
  | case2 offset c cs hc ih =>
    rw [List.cons_append, scan_cons_of_isBlank hc] at h ⊢
    have hlength : offset + (c :: cs).length = offset + 1 + cs.length := by
      rw [List.length_cons, Nat.add_assoc, Nat.add_comm 1]
    rw [hlength] at h ⊢
    exact ih h
  | case3 offset c cs hc ih =>
    rw [List.cons_append, scan_cons_of_not_isBlank hc, ← List.cons_append] at h ⊢
    obtain ⟨hfirst, hrest⟩ := List.forall_mem_cons.1 h
    have hpos := List.length_pos_iff.2 (lexeme_cons_ne_nil c cs)
    have hlexeme : lexeme (c :: cs ++ ds) = lexeme (c :: cs) := by
      apply lexeme_append_of_length_le (List.cons_ne_nil c cs)
      simp only [LocatedToken.Straddles, finish_ofLexeme, List.length_cons] at hfirst ⊢
      omega
    rw [hlexeme, List.drop_append_of_le_length (length_lexeme_le _),
      ← add_length_lexeme_add_length_drop offset (c :: cs)] at hrest ⊢
    rw [ih hrest, List.cons_append]

/-! ### Blanks -/

/-- A blank extends no lexeme. -/
theorem not_isExtendedBy_of_isBlank {d : Char} (hd : isBlank d) (cs : List Char) :
    ¬ isExtendedBy cs d := by
  apply not_isExtendedBy
  · exact fun hword => not_isBlank_of_isWordChar hword hd
  · rintro rfl
    exact absurd hd (by decide)

theorem scan_blanks_append {ws : List Char} (hws : ∀ c ∈ ws, isBlank c) (offset : Nat)
    (cs : List Char) : scan offset (ws ++ cs) = scan (offset + ws.length) cs := by
  induction ws generalizing offset with
  | nil => rfl
  | cons c ws ih =>
    obtain ⟨hc, hws⟩ := List.forall_mem_cons.1 hws
    rw [List.cons_append, scan_cons_of_isBlank hc, ih hws, List.length_cons, Nat.add_assoc,
      Nat.add_comm 1]

/-- Blanks between tokens move what is behind them further on. -/
theorem scan_insert_blanks {offset : Nat} {cs ws ds : List Char} (hws : ∀ c ∈ ws, isBlank c)
    (h : ∀ t ∈ scan offset (cs ++ ds), ¬ t.Straddles (offset + cs.length)) :
    scan offset (cs ++ ws ++ ds) =
      scan offset cs ++ (scan (offset + cs.length) ds).map (.shift ws.length) := by
  rw [← scan_add, List.append_assoc]
  cases ws with
  | nil => exact scan_append_of_not_straddles h
  | cons w ws =>
    have hw : isBlank w := hws w List.mem_cons_self
    rw [List.cons_append, scan_append_cons (not_isExtendedBy_of_isBlank hw), ← List.cons_append,
      scan_blanks_append hws]

/-! ### What stands behind a place moves -/

/-- The token `n` octets further on, if it is recorded to stand at `p` or behind. -/
def LocatedToken.shiftFrom (p n : Nat) (t : LocatedToken) : LocatedToken :=
  if (UInt32.ofNat t.offset).toNat < p then t else t.shift n

/-- The diagnostic `n` octets further on, if it stands at `p` or behind. -/
def Diagnostic.shiftFrom (p n : Nat) (d : Diagnostic) : Diagnostic :=
  if d.position.offset.toNat < p then d else d.shift n

theorem shiftFrom_of_lt {t : LocatedToken} {p : Nat} (h : t.offset < p) (n : Nat) :
    t.shiftFrom p n = t := by
  apply if_pos
  rw [UInt32.toNat_ofNat']
  exact Nat.lt_of_le_of_lt (Nat.mod_le _ _) h

theorem shiftFrom_of_le {t : LocatedToken} {p : Nat} (h : p ≤ t.offset)
    (ht : t.offset < 2 ^ 32) (n : Nat) : t.shiftFrom p n = t.shift n := by
  apply if_neg
  rw [UInt32.toNat_ofNat', Nat.mod_eq_of_lt ht]
  exact Nat.not_lt.2 h

@[simp]
theorem token_shiftFrom (p n : Nat) (t : LocatedToken) : (t.shiftFrom p n).token = t.token := by
  rw [LocatedToken.shiftFrom]
  split <;> rfl

@[simp]
theorem kind_shiftFrom (p n : Nat) (t : LocatedToken) : (t.shiftFrom p n).kind = t.kind :=
  congrArg Token.kind (token_shiftFrom p n t)

/-- A diagnostic on a token moves as the token does. -/
theorem diagnostic_shiftFrom {diagnose : LocatedToken → Diagnostic} {t : LocatedToken} {n : Nat}
    (hoffset : (diagnose t).position.offset = UInt32.ofNat t.offset)
    (hshift : diagnose (t.shift n) = (diagnose t).shift n) (p : Nat) :
    diagnose (t.shiftFrom p n) = (diagnose t).shiftFrom p n := by
  rw [LocatedToken.shiftFrom, Diagnostic.shiftFrom, hoffset]
  split
  · rfl
  · exact hshift

theorem respects_shiftFrom (file : String) (p n : Nat) :
    Respects file (LocatedToken.shiftFrom p n) (Diagnostic.shiftFrom p n) where
  letWord t := by rw [kind_shiftFrom]
  ident t := by rw [kind_shiftFrom]
  assign t := by rw [kind_shiftFrom]
  unexpected kind t := diagnostic_shiftFrom rfl ((respects_shift file n).unexpected kind t) p
  unrecognised t := diagnostic_shiftFrom rfl ((respects_shift file n).unrecognised t) p

theorem map_shiftFrom_of_forall_lt {ts : List LocatedToken} {p : Nat}
    (h : ∀ t ∈ ts, t.offset < p) (n : Nat) : ts.map (.shiftFrom p n) = ts := by
  conv_rhs => rw [← List.map_id ts]
  apply List.map_congr_left
  intro t ht
  exact shiftFrom_of_lt (h t ht) n

theorem map_shiftFrom_of_forall_le {ts : List LocatedToken} {p : Nat}
    (h : ∀ t ∈ ts, p ≤ t.offset ∧ t.offset < 2 ^ 32) (n : Nat) :
    ts.map (LocatedToken.shiftFrom p n) = ts.map (LocatedToken.shift n) := by
  apply List.map_congr_left
  intro t ht
  exact shiftFrom_of_le (h t ht).1 (h t ht).2 n

/-- Blanks between tokens move the tokens behind them. -/
theorem scan_insert_blanks_eq_map {cs ws ds : List Char} (hws : ∀ c ∈ ws, isBlank c)
    (h : ∀ t ∈ scan 0 (cs ++ ds), ¬ t.Straddles cs.length)
    (hsize : cs.length + ds.length < 2 ^ 32) :
    scan 0 (cs ++ ws ++ ds) = (scan 0 (cs ++ ds)).map (.shiftFrom cs.length ws.length) := by
  rw [← Nat.zero_add cs.length] at h
  have hcut := scan_append_of_not_straddles h
  have hinsert := scan_insert_blanks hws h
  rw [Nat.zero_add] at hcut hinsert
  have hfront : ∀ t ∈ scan 0 cs, t.offset < cs.length := by
    intro t ht
    have hlt := offset_lt_of_mem_scan ht
    rwa [Nat.zero_add] at hlt
  have hbehind : ∀ t ∈ scan cs.length ds, cs.length ≤ t.offset ∧ t.offset < 2 ^ 32 := by
    intro t ht
    obtain ⟨n, -, -, hoffset, -⟩ := exists_drop_of_mem_scan ht
    have hlt := offset_lt_of_mem_scan ht
    omega
  rw [hinsert, hcut, List.map_append, map_shiftFrom_of_forall_lt hfront,
    map_shiftFrom_of_forall_le hbehind]

theorem toNat_offset_shift {d : Diagnostic} {n : Nat}
    (h : d.position.offset.toNat + n < 2 ^ 32) :
    (d.shift n).position.offset.toNat = d.position.offset.toNat + n := by
  show (d.position.offset + UInt32.ofNat n).toNat = _
  rw [UInt32.toNat_add, UInt32.toNat_ofNat']
  omega

/-! ### Programs -/

section

variable {a w b : String} {file : Option String}

theorem words_insert_blanks (hw : ∀ c ∈ w.toList, isBlank c)
    (hgap : ∀ t ∈ (Cursor.ofSource (a ++ b) file).tokens, ¬ t.Straddles a.utf8ByteSize)
    (hsize : (a ++ b).utf8ByteSize < 2 ^ 32) :
    (Cursor.ofSource (a ++ w ++ b) file).words =
      (Cursor.ofSource (a ++ b) file).words.map (.shiftFrom a.utf8ByteSize w.utf8ByteSize) := by
  have hwords (s : String) : (Cursor.ofSource s file).words = scan 0 (octets s) := rfl
  have hblank : ∀ c ∈ octets w, isBlank c := by
    rw [octets_of_forall_lt fun c hc => toNat_lt_of_isBlank (hw c hc)]
    exact hw
  simp only [tokens_ofSource, List.forall_mem_append, String.utf8ByteSize_append] at hgap hsize
  simp only [← length_octets_eq_utf8ByteSize, octets_append] at hgap hsize ⊢
  rw [hwords, hwords, octets_append, octets_append, octets_append]
  exact scan_insert_blanks_eq_map hblank hgap.1 hsize

theorem stop_insert_blanks (hsize : (a ++ b).utf8ByteSize < 2 ^ 32) :
    (Cursor.ofSource (a ++ w ++ b) file).stop =
      (Cursor.ofSource (a ++ b) file).stop.shiftFrom a.utf8ByteSize w.utf8ByteSize := by
  have hstop (s : String) : (Cursor.ofSource s file).stop = ⟨.endOfText, s.utf8ByteSize⟩ := by
    rw [Cursor.stop, Cursor.ofSource, Nat.zero_add, length_octets_eq_utf8ByteSize]
  have hle : a.utf8ByteSize ≤ (a ++ b).utf8ByteSize := by
    rw [String.utf8ByteSize_append]
    exact Nat.le_add_right _ _
  rw [hstop, hstop, shiftFrom_of_le hle hsize, LocatedToken.shift]
  simp only [String.utf8ByteSize_append]
  rw [Nat.add_right_comm]

theorem statements_insert_blanks (hw : ∀ c ∈ w.toList, isBlank c)
    (hgap : ∀ t ∈ (Cursor.ofSource (a ++ b) file).tokens, ¬ t.Straddles a.utf8ByteSize)
    (hsize : (a ++ b).utf8ByteSize < 2 ^ 32) :
    (parse (a ++ w ++ b) file).1 = (parse (a ++ b) file).1 := by
  rw [parse_eq_gather, parse_eq_gather, gather, gather, Cursor.segments, Cursor.segments,
    words_insert_blanks hw hgap hsize, stop_insert_blanks hsize, filterMap_node?_segments,
    filterMap_node?_segments]
  simp [Function.comp_def]

theorem diagnostics_insert_blanks (hw : ∀ c ∈ w.toList, isBlank c)
    (hgap : ∀ t ∈ (Cursor.ofSource (a ++ b) file).tokens, ¬ t.Straddles a.utf8ByteSize)
    (hsize : (a ++ b).utf8ByteSize < 2 ^ 32) :
    (parse (a ++ w ++ b) file).2.toList =
      (parse (a ++ b) file).2.toList.map (.shiftFrom a.utf8ByteSize w.utf8ByteSize) := by
  rw [parse_eq_gather, parse_eq_gather, gather, gather, Cursor.segments, Cursor.segments,
    words_insert_blanks hw hgap hsize, stop_insert_blanks hsize]
  apply (respects_shiftFrom _ _ _).flatMap_faults_segments_map
  intro t _
  rw [kind_shiftFrom]

/-- Blanks put between the tokens of a text change neither its tokens nor its statements. The
diagnostics stay the same, and those behind the blanks stand as much further on as there are
blanks. -/
theorem parse_insert_blanks (hw : ∀ c ∈ w.toList, isBlank c)
    (hgap : ∀ t ∈ (Cursor.ofSource (a ++ b) file).tokens,
      ¬ (t.offset < a.utf8ByteSize ∧ a.utf8ByteSize < t.finish))
    (hsize : (a ++ b).utf8ByteSize + w.utf8ByteSize < 2 ^ 32) :
    tokenize (a ++ w ++ b) file = tokenize (a ++ b) file ∧
      (parse (a ++ w ++ b) file).1 = (parse (a ++ b) file).1 ∧
      List.Forall₂ (fun d e : Diagnostic => e.fault = d.fault ∧
          e.position.file = d.position.file ∧
          e.position.offset.toNat =
            if d.position.offset.toNat < a.utf8ByteSize then d.position.offset.toNat
            else d.position.offset.toNat + w.utf8ByteSize)
        (parse (a ++ b) file).2.toList (parse (a ++ w ++ b) file).2.toList := by
  have hsize' : (a ++ b).utf8ByteSize < 2 ^ 32 := Nat.lt_of_le_of_lt (Nat.le_add_right _ _) hsize
  refine ⟨?_, statements_insert_blanks hw hgap hsize', ?_⟩
  · rw [tokenize, tokenize, Cursor.tokens_eq, Cursor.tokens_eq,
      words_insert_blanks hw hgap hsize', stop_insert_blanks hsize']
    simp [Function.comp_def]
  · rw [diagnostics_insert_blanks hw hgap hsize', List.forall₂_map_right_iff, List.forall₂_same]
    intro d hd
    rw [Diagnostic.shiftFrom]
    split
    · exact ⟨rfl, rfl, rfl⟩
    · refine ⟨rfl, rfl, toNat_offset_shift ?_⟩
      have hle := offset_le_of_mem_parse (Array.mem_toList_iff.1 hd)
      omega

/-- Tokens that touch may be parted; the number in front of the line end stays where it is, and the
end of the text moves. -/
theorem parse_insert_blanks_touching :
    let a := "let x = 5; 5"
    let b := "five let"
    (∀ c ∈ "\r\n".toList, isBlank c) ∧
      (∀ t ∈ (Cursor.ofSource (a ++ b) none).tokens,
        ¬ (t.offset < a.utf8ByteSize ∧ a.utf8ByteSize < t.finish)) ∧
      (a ++ b).utf8ByteSize + "\r\n".utf8ByteSize < 2 ^ 32 ∧
      tokenize (a ++ "\r\n" ++ b) none = tokenize (a ++ b) none ∧
      (parse (a ++ b) none).2.toList.map (·.position.offset) = [11, 20] ∧
      (parse (a ++ "\r\n" ++ b) none).2.toList.map (·.position.offset) = [11, 22] := by
  intro a b
  have hw : ∀ c ∈ "\r\n".toList, isBlank c := List.all_eq_true.1 (by decide)
  have hgap : ∀ t ∈ (Cursor.ofSource (a ++ b) none).tokens,
      ¬ (t.offset < a.utf8ByteSize ∧ a.utf8ByteSize < t.finish) := by decide +kernel
  have hsize : (a ++ b).utf8ByteSize + "\r\n".utf8ByteSize < 2 ^ 32 := by decide
  obtain ⟨htokens, -, -⟩ := parse_insert_blanks hw hgap hsize
  exact ⟨hw, hgap, hsize, htokens, by decide +kernel, by decide +kernel⟩

end

end MonkeyLang
