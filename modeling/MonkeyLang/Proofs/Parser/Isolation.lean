import Mathlib.Algebra.Group.Nat.Defs
import MonkeyLang.Proofs.Parser.Standard
import MonkeyLang.Proofs.Text.Octets
import MonkeyLang.Proofs.Token.Concat

/-!
# Programs in a row

Two programs with a semicolon between them give the statements and the diagnostics of both
(`parse_append_semicolon`). The first has a semicolon where it had its end, and the second
stands further on; neither change makes a difference to what a segment gives, other than in the
tokens that its diagnostics name.
-/

namespace MonkeyLang

open Text

/-! ### Changing the tokens of a program -/

/-- A change `f` of tokens that `let` heads are blind to, and the change `g` of diagnostics that
it makes. -/
structure Respects (file : String) (f : LocatedToken → LocatedToken)
    (g : Diagnostic → Diagnostic) : Prop where
  letWord (t : LocatedToken) : (f t).kind = .letWord ↔ t.kind = .letWord
  ident (t : LocatedToken) : (f t).kind = .ident ↔ t.kind = .ident
  assign (t : LocatedToken) : (f t).kind = .assign ↔ t.kind = .assign
  unexpected (kind : TokenKind) (t : LocatedToken) :
    .unexpected file kind (f t) = g (.unexpected file kind t)
  unrecognised (t : LocatedToken) : .unrecognised file (f t) = g (.unrecognised file t)

/-- The segment with each of its tokens changed. -/
def Segment.map (f : LocatedToken → LocatedToken) (s : Segment) : Segment :=
  ⟨s.tokens.map f, f s.close⟩

theorem segments_map {f : LocatedToken → LocatedToken} {ts : List LocatedToken}
    (h : ∀ t ∈ ts, (f t).kind = .semicolon ↔ t.kind = .semicolon) (stop : LocatedToken) :
    segments (f stop) (ts.map f) = (segments stop ts).map (Segment.map f) := by
  induction ts with
  | nil => rfl
  | cons t ts ih =>
    have hhead := h t List.mem_cons_self
    have htail : segments (f stop) (ts.map f) = (segments stop ts).map (Segment.map f) := by
      apply ih
      intro u hu
      exact h u (List.mem_cons_of_mem t hu)
    simp only [List.map_cons, segments, htail, hhead]
    split
    · rfl
    · cases segments stop ts <;> rfl

namespace Respects

variable {file : String} {f : LocatedToken → LocatedToken} {g : Diagnostic → Diagnostic}

theorem beginsWithLet_map (h : Respects file f g) (ts : List LocatedToken) :
    beginsWithLet (ts.map f) = beginsWithLet ts := by
  match ts with
  | [] | [_] | [_, _] => rfl
  | t :: name :: sign :: ts =>
    rw [Bool.eq_iff_iff]
    simp only [List.map_cons, beginsWithLet_iff, h.letWord, h.ident, h.assign]

theorem letFault?_map (h : Respects file f g) (ts : List LocatedToken) :
    letFault? file (ts.map f) = (letFault? file ts).map g := by
  match ts with
  | [] | [_] => rfl
  | t :: name :: ts =>
    simp only [List.map_cons, letFault?, ne_eq, h.letWord, h.ident, h.unexpected]
    split
    · rfl
    · split
      · rfl
      · cases ts with
        | nil => rfl
        | cons sign ts => simp [h.unexpected]

theorem letFaults_map (h : Respects file f g) (ts : List LocatedToken) :
    letFaults file (ts.map f) = (letFaults file ts).map g := by
  induction ts with
  | nil => rfl
  | cons t ts ih =>
    have hbegins := h.beginsWithLet_map (t :: ts)
    by_cases hhead : beginsWithLet (t :: ts)
    · rw [letFaults_cons_of_beginsWithLet hhead, List.map_cons,
        letFaults_cons_of_beginsWithLet (hbegins.trans hhead)]
      rfl
    · have hfault := h.letFault?_map (t :: ts)
      rw [List.map_cons] at hbegins hfault ⊢
      rw [letFaults_cons_of_not_beginsWithLet hhead,
        letFaults_cons_of_not_beginsWithLet (by rwa [hbegins]), hfault, ih, List.map_append]
      cases letFault? file (t :: ts) <;> rfl

theorem startFaults_map (h : Respects file f g) (ts : List LocatedToken) :
    startFaults file (ts.map f) = (startFaults file ts).map g := by
  cases ts with
  | nil => rfl
  | cons t ts =>
    simp only [List.map_cons, startFaults, ne_eq, h.letWord, h.unrecognised]
    split <;> rfl

theorem faults_map (h : Respects file f g) (s : Segment) :
    (s.map f).faults file = (s.faults file).map g := by
  have htokens : (s.map f).tokens ++ [(s.map f).close] = (s.tokens ++ [s.close]).map f := by
    rw [List.map_append]
    rfl
  rw [Segment.faults, Segment.faults, htokens, h.letFaults_map, List.map_append,
    ← h.startFaults_map]
  rfl

/-- The diagnostics on a changed program are those on the program, changed. -/
theorem flatMap_faults_segments_map (h : Respects file f g) {ts : List LocatedToken}
    (hsemi : ∀ t ∈ ts, (f t).kind = .semicolon ↔ t.kind = .semicolon) (stop : LocatedToken) :
    (segments (f stop) (ts.map f)).flatMap (Segment.faults file) =
      ((segments stop ts).flatMap (Segment.faults file)).map g := by
  rw [segments_map hsemi, List.flatMap_map, List.map_flatMap]
  apply congrArg List.flatten
  apply List.map_congr_left
  intro s _
  exact h.faults_map s

end Respects

/-! ### The end of a text becomes a semicolon -/

/-- The token, with a semicolon for the end of the text. -/
def Token.orSemicolon (t : Token) : Token :=
  if t.kind = .eof then ⟨.semicolon, ";"⟩ else t

/-- The token in its place, with a semicolon for the end of the text. -/
def LocatedToken.orSemicolon (t : LocatedToken) : LocatedToken :=
  { t with token := t.token.orSemicolon }

/-- The fault with another token found. -/
def Fault.mapFound (f : Token → Token) : Fault → Fault
  | unexpectedToken expected found => .unexpectedToken expected (f found)
  | unrecognisedStatement found => .unrecognisedStatement (f found)
  | invalidNumber found => .invalidNumber (f found)

/-- The diagnostic, with a semicolon found for the end of the text. -/
def Diagnostic.orSemicolon (d : Diagnostic) : Diagnostic :=
  { d with fault := d.fault.mapFound Token.orSemicolon }

theorem orSemicolon_of_kind_ne {t : LocatedToken} (ht : t.kind ≠ .eof) : t.orSemicolon = t :=
  congrArg (fun u => LocatedToken.mk u t.offset) (if_neg ht)

theorem kind_orSemicolon_eq_iff {kind : TokenKind} (heof : kind ≠ .eof)
    (hsemi : kind ≠ .semicolon) (t : LocatedToken) :
    t.orSemicolon.kind = kind ↔ t.kind = kind := by
  by_cases ht : t.kind = .eof
  · have hkind : t.orSemicolon.kind = .semicolon := congrArg Token.kind (if_pos ht)
    rw [hkind, ht]
    exact iff_of_false hsemi.symm heof.symm
  · rw [orSemicolon_of_kind_ne ht]

theorem respects_orSemicolon (file : String) :
    Respects file LocatedToken.orSemicolon Diagnostic.orSemicolon where
  letWord := kind_orSemicolon_eq_iff TokenKind.noConfusion TokenKind.noConfusion
  ident := kind_orSemicolon_eq_iff TokenKind.noConfusion TokenKind.noConfusion
  assign := kind_orSemicolon_eq_iff TokenKind.noConfusion TokenKind.noConfusion
  unexpected _ _ := rfl
  unrecognised _ := rfl

theorem map_orSemicolon_words (c : Cursor) : c.words.map .orSemicolon = c.words := by
  conv_rhs => rw [← List.map_id c.words]
  apply List.map_congr_left
  intro t ht
  exact orSemicolon_of_kind_ne (Cursor.kind_ne_eof_of_mem_words ht)

/-! ### A text stands further on -/

/-- The diagnostic `n` octets further on. -/
def Diagnostic.shift (n : Nat) (d : Diagnostic) : Diagnostic :=
  { d with position := { d.position with offset := d.position.offset + UInt32.ofNat n } }

theorem position_shift (t : LocatedToken) (n : Nat) (file : String) :
    (t.shift n).position file = ⟨(t.position file).offset + UInt32.ofNat n, file⟩ :=
  congrArg (Position.mk · file) (UInt32.ofNat_add t.offset n)

theorem respects_shift (file : String) (n : Nat) :
    Respects file (LocatedToken.shift n) (Diagnostic.shift n) where
  letWord _ := Iff.rfl
  ident _ := Iff.rfl
  assign _ := Iff.rfl
  unexpected kind t := by
    rw [Diagnostic.unexpected, position_shift]
    rfl
  unrecognised t := by
    rw [Diagnostic.unrecognised, position_shift]
    rfl

/-! ### Where diagnostics stand -/

/-- The diagnostics on a text stand in it or at its end. -/
theorem offset_le_of_mem_parse {source : String} {file : Option String} {d : Diagnostic}
    (hd : d ∈ (parse source file).2) : d.position.offset.toNat ≤ source.utf8ByteSize := by
  rw [parse_eq_gather, List.mem_toArray] at hd
  obtain ⟨s, hs, hd⟩ := List.mem_flatMap.1 hd
  obtain ⟨t, ht, hfault⟩ := exists_token_of_mem_faults hd
  have hmem : t ∈ (Cursor.ofSource source file).words ++ [(Cursor.ofSource source file).stop] := by
    rw [← flatMap_segments]
    exact List.mem_flatMap.2 ⟨s, hs, ht⟩
  have hle : t.offset ≤ source.utf8ByteSize := by
    rw [← length_octets_eq_utf8ByteSize]
    rcases List.mem_append.1 hmem with hword | hstop
    · have hlt := offset_lt_of_mem_scan hword
      simpa [Cursor.ofSource] using hlt.le
    · rw [List.mem_singleton.1 hstop]
      simp [Cursor.stop, Cursor.ofSource]
  have hmod : (UInt32.ofNat t.offset).toNat ≤ t.offset := by
    rw [UInt32.toNat_ofNat']
    exact Nat.mod_le _ _
  have hposition : d.position = t.position (file.getD Cursor.defaultFile) := by
    rcases hfault with rfl | ⟨kind, rfl⟩
    · rfl
    · rfl
  rw [hposition]
  exact hmod.trans hle

/-! ### Two programs in a row -/

theorem octets_append_semicolon (a b : String) :
    octets (a ++ ";" ++ b) = octets a ++ ';' :: octets b := by
  simp

theorem words_append_semicolon (a b : String) (file : Option String) :
    (Cursor.ofSource (a ++ ";" ++ b) file).words =
      (Cursor.ofSource a file).words ++ (Cursor.ofSource a file).stop.orSemicolon ::
        (Cursor.ofSource b file).words.map (.shift (a.utf8ByteSize + 1)) := by
  have hscan := scan_append_semicolon 0 (octets a) (octets b)
  rw [← octets_append_semicolon] at hscan
  rw [← length_octets_eq_utf8ByteSize]
  exact hscan

theorem stop_append_semicolon (a b : String) (file : Option String) :
    (Cursor.ofSource (a ++ ";" ++ b) file).stop =
      (Cursor.ofSource b file).stop.shift (a.utf8ByteSize + 1) := by
  have hlength : 0 + (octets (a ++ ";" ++ b)).length =
      0 + (octets b).length + (a.utf8ByteSize + 1) := by
    rw [octets_append_semicolon, List.length_append, List.length_cons,
      length_octets_eq_utf8ByteSize a]
    omega
  exact congrArg (LocatedToken.mk .endOfText) hlength

/-- With a semicolon between two texts, the segments of the first are followed by those of the
second. -/
theorem segments_append_semicolon (a b : String) (file : Option String) :
    (Cursor.ofSource (a ++ ";" ++ b) file).segments =
      segments (Cursor.ofSource a file).stop.orSemicolon (Cursor.ofSource a file).words ++
        segments ((Cursor.ofSource b file).stop.shift (a.utf8ByteSize + 1))
          ((Cursor.ofSource b file).words.map (.shift (a.utf8ByteSize + 1))) := by
  rw [Cursor.segments, words_append_semicolon, stop_append_semicolon]
  exact segments_append rfl _ _ _

/-- A semicolon keeps programs apart: the statements of both come one behind the other, and so do
the diagnostics. Those on the first find the semicolon where they found the end of the text, and
those on the second stand as far on as the second does. -/
theorem parse_append_semicolon (a b : String) (file : Option String)
    (hsize : a.utf8ByteSize + 1 + b.utf8ByteSize < 2 ^ 32) :
    (parse (a ++ ";" ++ b) file).1.statements =
        (parse a file).1.statements ++ (parse b file).1.statements ∧
      (parse (a ++ ";" ++ b) file).2.toList =
        (parse a file).2.toList.map .orSemicolon ++
          (parse b file).2.toList.map (.shift (a.utf8ByteSize + 1)) ∧
      ∀ d ∈ (parse b file).2, (d.shift (a.utf8ByteSize + 1)).position.offset.toNat =
        d.position.offset.toNat + (a.utf8ByteSize + 1) := by
  have hsegments := segments_append_semicolon a b file
  refine ⟨?_, ?_, ?_⟩
  · rw [parse_eq_gather, parse_eq_gather, parse_eq_gather, gather, gather, gather, hsegments,
      List.filterMap_append]
    simp only [Cursor.segments, filterMap_node?_segments, List.map_map]
    rfl
  · have hwords : ∀ t ∈ (Cursor.ofSource a file).words,
        t.orSemicolon.kind = .semicolon ↔ t.kind = .semicolon := by
      intro t ht
      rw [orSemicolon_of_kind_ne (Cursor.kind_ne_eof_of_mem_words ht)]
    rw [parse_eq_gather, parse_eq_gather, parse_eq_gather, gather, gather, gather, hsegments,
      List.flatMap_append, ← map_orSemicolon_words,
      (respects_orSemicolon _).flatMap_faults_segments_map hwords,
      (respects_shift _ _).flatMap_faults_segments_map fun _ _ => Iff.rfl]
    rfl
  · intro d hd
    have hle := offset_le_of_mem_parse hd
    show (d.position.offset + UInt32.ofNat (a.utf8ByteSize + 1)).toNat = _
    rw [UInt32.toNat_add, UInt32.toNat_ofNat']
    omega

/-- A text that ends inside a `let` head does not hide what is behind the semicolon. -/
theorem parse_append_semicolon_truncated :
    "let x".utf8ByteSize + 1 + "5; let y = 6".utf8ByteSize < 2 ^ 32 ∧
      (parse ("let x" ++ ";" ++ "5; let y = 6") none).1.statements =
        [.letStatement ⟨.letWord, "let"⟩ (.ofToken ⟨.ident, "y"⟩) none] ∧
      (parse ("let x" ++ ";" ++ "5; let y = 6") none).2.toList =
        [⟨.unexpectedToken .assign ⟨.semicolon, ";"⟩, ⟨5, Cursor.defaultFile⟩⟩,
          ⟨.unrecognisedStatement ⟨.int, "5"⟩, ⟨6, Cursor.defaultFile⟩⟩] := by
  have hsize : "let x".utf8ByteSize + 1 + "5; let y = 6".utf8ByteSize < 2 ^ 32 := by decide
  obtain ⟨hnodes, hdiagnostics, -⟩ := parse_append_semicolon "let x" "5; let y = 6" none hsize
  refine ⟨hsize, ?_, ?_⟩
  · rw [hnodes]
    decide +kernel
  · rw [hdiagnostics]
    decide +kernel

end MonkeyLang
