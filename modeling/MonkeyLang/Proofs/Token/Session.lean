import MonkeyLang.Proofs.Token.Concat
import MonkeyLang.Proofs.Token.Reader

/-!
# Readers in use

A reader may be made to read a token, as such or as an item of a list, be moved on by a single
octet, even into a character or past the end, be saved, and be set back to a saved copy. Whatever
is done with it, no read fails and the reader is where a cursor used in the same way is
(`run?_eq`). So its two positions and the octet at hand agree, and where a character begins it goes
on like a fresh reader of the text from there on (`run?_inStep`). It cuts out of its source only
ASCII words, from where a character begins to where one ends (`slices_run?`).
-/

namespace MonkeyLang

open Text

/-- A reader or a cursor in use, and the copies that were saved of it, the latest first. -/
structure Session (σ : Type) where
  current : σ
  saved : List σ

namespace Session

variable {σ τ : Type}

/-- A session begins with a copy of its start. -/
def start (x : σ) : Session σ :=
  ⟨x, [x]⟩

def move (s : Session σ) (x : σ) : Session σ :=
  { s with current := x }

def save (s : Session σ) : Session σ :=
  { s with saved := s.current :: s.saved }

/-- Goes back to the copy with the given index, if there is one. -/
def restore (s : Session σ) (i : Nat) : Session σ :=
  s.move (s.saved.getD i s.current)

def map (f : σ → τ) (s : Session σ) : Session τ :=
  ⟨f s.current, s.saved.map f⟩

/-- The current state and all copies have a property. -/
def All (P : σ → Prop) (s : Session σ) : Prop :=
  P s.current ∧ ∀ x ∈ s.saved, P x

theorem map_start (f : σ → τ) (x : σ) : (start x).map f = start (f x) := rfl

theorem map_restore (f : σ → τ) (s : Session σ) (i : Nat) :
    (s.map f).restore i = (s.restore i).map f := by
  simp [map, restore, move, List.getD_eq_getElem?_getD, Option.getD_map]

section

variable {P : σ → Prop} {s : Session σ} {x : σ}

theorem all_start (hx : P x) : (start x).All P :=
  ⟨hx, by simpa [start] using hx⟩

theorem All.move (h : s.All P) (hx : P x) : (s.move x).All P :=
  ⟨hx, h.2⟩

theorem All.save (h : s.All P) : s.save.All P :=
  ⟨h.1, List.forall_mem_cons.2 h⟩

theorem All.restore (h : s.All P) (i : Nat) : (s.restore i).All P := by
  refine h.move ?_
  rw [List.getD_eq_getElem?_getD]
  cases hi : s.saved[i]? with
  | none => exact h.1
  | some x => exact h.2 x (List.mem_of_getElem? hi)

end

end Session

/-- What can be done with a reader or a cursor. -/
inductive Use
  | next
  | nextItem
  | readOctet
  | save
  | restore (i : Nat)

namespace Use

/-- A reader after one more use; there is none if a read fails. -/
def onReader? (s : Session Reader) : Use → Option (Session Reader)
  | next => s.current.next?.map fun token => s.move token.2
  | nextItem => s.current.nextItem?.map fun item => s.move item.2
  | readOctet => some (s.move s.current.readOctet)
  | save => some s.save
  | restore i => some (s.restore i)

def onCursor (s : Session Cursor) : Use → Session Cursor
  | next => s.move s.current.next.2
  | nextItem => s.move s.current.next?.2
  | readOctet => s.move (s.current.advance 1)
  | save => s.save
  | restore i => s.restore i

end Use

/-- A fresh reader of a source text after some uses; there is none if a read fails. -/
def Reader.run? (source : String) (file : Option String) (uses : List Use) :
    Option (Session Reader) :=
  uses.foldlM Use.onReader? (.start (.ofSource source file))

def Cursor.run (source : String) (file : Option String) (uses : List Use) : Session Cursor :=
  uses.foldl Use.onCursor (.start (.ofSource source file))

section

variable {source : String} {file : Option String} {s : Session Cursor}

/-! ### A reader is where a cursor is -/

theorem all_onCursor (h : s.All (·.StandsIn source file)) (u : Use) :
    (u.onCursor s).All (·.StandsIn source file) := by
  cases u with
  | next => exact h.move h.1.next
  | nextItem => exact h.move h.1.next
  | readOctet => exact h.move (h.1.advance 1)
  | save => exact h.save
  | restore i => exact h.restore i

theorem onReader?_map (h : s.All (·.StandsIn source file)) (u : Use) :
    u.onReader? (s.map Cursor.reader) = some ((u.onCursor s).map Cursor.reader) := by
  cases u with
  | next => exact congrArg (Option.map _) h.1.next?_reader
  | nextItem => exact congrArg (Option.map _) h.1.nextItem?_reader
  | readOctet => exact congrArg (fun r => some ((s.map Cursor.reader).move r)) h.1.readOctet_reader
  | save => rfl
  | restore i => exact congrArg some (s.map_restore Cursor.reader i)

theorem foldlM_onReader?_map (h : s.All (·.StandsIn source file)) (uses : List Use) :
    uses.foldlM Use.onReader? (s.map Cursor.reader) =
      some ((uses.foldl Use.onCursor s).map Cursor.reader) := by
  induction uses generalizing s with
  | nil => rfl
  | cons u uses ih =>
    rw [List.foldlM_cons, onReader?_map h]
    exact ih (all_onCursor h u)

theorem all_run (source : String) (file : Option String) (uses : List Use) :
    (Cursor.run source file uses).All (·.StandsIn source file) := by
  refine List.foldlRecOn uses Use.onCursor ?_ fun s hs u _ => all_onCursor hs u
  exact Session.all_start (Cursor.standsIn_ofSource source file)

/-- However a reader is used, no read fails, and it is where a cursor used in the same way is. -/
theorem run?_eq (source : String) (file : Option String) (uses : List Use) :
    Reader.run? source file uses = some ((Cursor.run source file uses).map Cursor.reader) := by
  rw [Reader.run?, ← Cursor.reader_ofSource, ← Session.map_start]
  exact foldlM_onReader?_map (Session.all_start (Cursor.standsIn_ofSource source file)) uses

end

/-! ### The tokens that a reader goes on with -/

namespace Cursor.StandsIn

variable {source : String} {file : Option String} {c : Cursor}

theorem tokens?_reader (h : c.StandsIn source file) (n : Nat) :
    c.reader.tokens? n = some ((List.range n).map c.stream, (c.after n).reader) := by
  induction n generalizing c with
  | zero => rfl
  | succ n ih =>
    have hstream : (List.range n).map c.next.2.stream =
        ((List.range n).map Nat.succ).map c.stream := by
      rw [List.map_map]
      rfl
    rw [Reader.tokens?, h.next?_reader, Option.bind_eq_bind, Option.bind_some, ih h.next,
      List.range_succ_eq_map, List.map_cons, ← hstream]
    rfl

/-- Behind a piece of text a cursor reads what a fresh cursor reads of the rest, further on by the
width of the piece. -/
theorem stream_eq_shift {front back : String} (h : c.StandsIn (front ++ back) file)
    (hposition : c.position = front.utf8ByteSize) (name : Option String) (n : Nat) :
    c.stream n = ((Cursor.ofSource back name).stream n).shift c.position := by
  have hrest : c.rest = octets back := by
    rw [h.rest_eq, hposition, ← length_octets_eq_utf8ByteSize, octets_append, List.drop_left]
  have hwords : c.words = (Cursor.ofSource back name).words.map (.shift c.position) := by
    rw [words, words, hrest, ← scan_add, Cursor.ofSource, Nat.zero_add]
  have hstop : c.stop = (Cursor.ofSource back name).stop.shift c.position := by
    rw [stop, stop, hrest, LocatedToken.shift, Cursor.ofSource, Nat.zero_add, Nat.add_comm]
  rw [stream_eq, stream_eq, hwords, hstop, ← List.map_drop]
  cases (Cursor.ofSource back name).words.drop n <;> rfl

theorem tokens?_reader_append {front back : String} (h : c.StandsIn (front ++ back) file)
    (hposition : c.position = front.utf8ByteSize) (name : Option String) (n : Nat) :
    ∃ ts later fresh, (Reader.ofSource back name).tokens? n = some (ts, fresh) ∧
      c.reader.tokens? n = some (ts.map (.shift c.position), later) := by
  have hfresh := (standsIn_ofSource back name).tokens?_reader n
  rw [reader_ofSource] at hfresh
  have hshift : (List.range n).map c.stream =
      ((List.range n).map (ofSource back name).stream).map (.shift c.position) := by
    rw [List.map_map]
    exact List.map_congr_left fun k _ => h.stream_eq_shift hposition name k
  refine ⟨_, (c.after n).reader, _, hfresh, ?_⟩
  rw [h.tokens?_reader, hshift]

end Cursor.StandsIn

/-- A reader whose two positions and whose octet agree, and which is in a source. -/
structure Reader.InStep (r : Reader) (source : String) (file : Option String) : Prop where
  source_eq : r.source = source
  file_eq : r.file = file.getD "shell"
  readPosition_eq : r.readPosition = r.position + 1
  octet_eq : r.octet = source.toByteArray.data.toList[r.position]?.map Char.ofUInt8
  tokenStart_le : r.tokenStart ≤ r.position

theorem Cursor.StandsIn.inStep_reader {source : String} {file : Option String} {c : Cursor}
    (h : c.StandsIn source file) : c.reader.InStep source file where
  source_eq := h.source_eq
  file_eq := h.file_eq
  readPosition_eq := rfl
  octet_eq := by
    rw [Cursor.reader, h.rest_eq, List.head?_drop, octets_eq_map_toByteArray, List.getElem?_map]
  tokenStart_le := h.tokenStart_le

/-- However a reader is used, its positions and its octet agree, and where a character begins or the
source ends it goes on with the tokens that a fresh reader finds in the rest of the source. -/
theorem run?_inStep (source : String) (file : Option String) (uses : List Use) :
    ∃ s, Reader.run? source file uses = some s ∧ s.current.InStep source file ∧
      (∀ (front back : String) (name : Option String), source = front ++ back →
        s.current.position = front.utf8ByteSize → ∀ n, ∃ ts later fresh,
          (Reader.ofSource back name).tokens? n = some (ts, fresh) ∧
            s.current.tokens? n = some (ts.map (.shift s.current.position), later)) ∧
      s = (Cursor.run source file uses).map Cursor.reader := by
  have hstands := (all_run source file uses).1
  refine ⟨_, run?_eq source file uses, hstands.inStep_reader, ?_, rfl⟩
  rintro front back name rfl hposition n
  exact hstands.tokens?_reader_append hposition name n

/-- Set back to between the two octets of `é` and moved on, a reader of `é5 x` goes on like a fresh
reader of `5 x`. -/
theorem run?_inStep_accent :
    ∃ s ts later fresh,
      Reader.run? "é5 x" none [.readOctet, .save, .next, .restore 0, .readOctet] = some s ∧
        (Reader.ofSource "5 x" none).tokens? 3 = some (ts, fresh) ∧
          s.current.tokens? 3 = some (ts.map (.shift 2), later) ∧
            ts.map LocatedToken.offset = [0, 2, 3] := by
  obtain ⟨s, hs, -, htokens, -⟩ :=
    run?_inStep "é5 x" none [.readOctet, .save, .next, .restore 0, .readOctet]
  have hposition : s.current.position = 2 := by
    have hrun : (Reader.run? "é5 x" none [.readOctet, .save, .next, .restore 0, .readOctet]).map
        (·.current.position) = some 2 := by decide +kernel
    rwa [hs, Option.map_some, Option.some_inj] at hrun
  obtain ⟨ts, later, fresh, hfresh, hlater⟩ := htokens "é" "5 x" none rfl hposition 3
  have hoffsets : ((Reader.ofSource "5 x" none).tokens? 3).map
      (fun read => read.1.map LocatedToken.offset) = some [0, 2, 3] := by decide +kernel
  rw [hfresh, Option.map_some, Option.some_inj] at hoffsets
  rw [hposition] at hlater
  exact ⟨s, ts, later, fresh, hs, hfresh, hlater, hoffsets⟩

/-! ### The pieces that a reader cuts out -/

/-- For its next token a reader cuts the source at the two offsets: where a word or a number starts,
and where reading on over its characters ends. -/
inductive Reader.Slices (r : Reader) : Nat → Nat → Prop
  | word {x : Char} (hx : r.skipBlanks.markStart.octet = some x) (hletter : isLetter x) :
      Slices r r.skipBlanks.markStart.position
        (r.skipBlanks.markStart.readWhile isWordChar).position
  | number {x : Char} (hx : r.skipBlanks.markStart.octet = some x) (hdigit : x.isDigit) :
      Slices r r.skipBlanks.markStart.position
        (r.skipBlanks.markStart.readWhile Char.isDigit).position

namespace Cursor.StandsIn

variable {source : String} {file : Option String} {c : Cursor} {p : Char → Bool} {x : Char}
  {cs : List Char} {start stop : Nat}

/-- A lexeme of one class of word characters is what is cut out, up to behind it. -/
theorem slice_of_lexeme_eq (h : c.StandsIn source file) (hp : ∀ d, p d → isWordChar d)
    (hrest : c.rest = x :: cs) (hlexeme : lexeme (x :: cs) = (x :: cs).takeWhile p) :
    c.position < (c.reader.readWhile p).position ∧
      slice? source c.position (c.reader.readWhile p).position = some c.takeLexeme.1.literal ∧
      (∀ d ∈ c.takeLexeme.1.literal.toList, isWordChar d) ∧
      c.takeLexeme.2.position = (c.reader.readWhile p).position := by
  rw [← hrest] at hlexeme
  have hne : c.rest.takeWhile p ≠ [] := by
    rw [← hlexeme, hrest]
    exact lexeme_cons_ne_nil x cs
  have hstop : (c.reader.readWhile p).position = c.position + (c.rest.takeWhile p).length :=
    congrArg Reader.position (h.readWhile_reader p)
  have hliteral : c.takeLexeme.1.literal = String.ofList (c.rest.takeWhile p) := by
    rw [takeLexeme_eq rfl hlexeme]
    rfl
  refine ⟨?_, ?_, ?_, ?_⟩
  · rw [hstop]
    exact Nat.lt_add_of_pos_right (List.length_pos_iff.2 hne)
  · rw [hstop, hliteral, h.slice?_takeWhile hp hne]
  · intro d hd
    rw [hliteral, String.toList_ofList] at hd
    exact hp d (List.mem_takeWhile_imp hd)
  · rw [hstop, takeLexeme_eq rfl hlexeme]
    rfl

/-- What is cut out is the literal of the next token, from where the token starts to behind it. -/
theorem slice_of_slices (h : c.StandsIn source file) (hslices : c.reader.Slices start stop) :
    start < stop ∧ slice? source start stop = some c.next.1.literal ∧
      (∀ d ∈ c.next.1.literal.toList, isWordChar d) ∧ c.next.2.tokenStart = start ∧
      c.next.2.position = stop := by
  cases hslices with
  | @word x hx hletter =>
    rw [h.start_reader] at hx ⊢
    obtain ⟨cs, hrest⟩ := List.head?_eq_some_iff.1 hx
    obtain ⟨hlt, hslice, hword, hposition⟩ :=
      h.start.slice_of_lexeme_eq (fun _ hd => hd) hrest (lexeme_of_isLetter hletter cs)
    exact ⟨hlt, hslice, hword, rfl, hposition⟩
  | @number x hx hdigit =>
    rw [h.start_reader] at hx ⊢
    obtain ⟨cs, hrest⟩ := List.head?_eq_some_iff.1 hx
    obtain ⟨hlt, hslice, hword, hposition⟩ :=
      h.start.slice_of_lexeme_eq (fun _ => isWordChar_of_isDigit) hrest (lexeme_of_isDigit hdigit cs)
    exact ⟨hlt, hslice, hword, rfl, hposition⟩

end Cursor.StandsIn

/-- However a reader is used, it has a next token, and what it cuts out of its source for that is
the literal of the token: an ASCII word, from where a character begins to where one ends. -/
theorem slices_run? (source : String) (file : Option String) (uses : List Use) :
    ∃ s, Reader.run? source file uses = some s ∧ ∃ t r, s.current.next? = some (t, r) ∧
      ∀ start stop, s.current.Slices start stop →
        start < stop ∧ stop ≤ source.utf8ByteSize ∧ String.Pos.Raw.IsValid source ⟨start⟩ ∧
          String.Pos.Raw.IsValid source ⟨stop⟩ ∧ slice? source start stop = some t.literal ∧
          (∀ c ∈ t.literal.toList, c.toNat < 128) ∧ r.tokenStart = start ∧ r.position = stop := by
  have hstands := (all_run source file uses).1
  refine ⟨_, run?_eq source file uses, _, _, hstands.next?_reader, ?_⟩
  intro start stop hslices
  obtain ⟨hlt, hslice, hword, hstart, hstop⟩ := hstands.slice_of_slices hslices
  obtain ⟨hvalidStart, hvalidStop⟩ := isValid_of_slice?_eq_some hslice
  exact ⟨hlt, hvalidStop.le_rawEndPos, hvalidStart, hvalidStop, hslice,
    fun c hc => toNat_lt_of_isWordChar (hword c hc), hstart, hstop⟩

/-- Behind the second octet of `é`, a reader of `éx1é` cuts out `x1`. -/
theorem slices_run?_accent :
    ∃ s t r, Reader.run? "éx1é" none [.readOctet, .next] = some s ∧ s.current.Slices 2 4 ∧
      s.current.next? = some (t, r) ∧ slice? "éx1é" 2 4 = some t.literal ∧
      String.Pos.Raw.IsValid "éx1é" ⟨4⟩ ∧ t.literal = "x1" := by
  obtain ⟨s, hs, t, r, ht, hslices⟩ := slices_run? "éx1é" none [.readOctet, .next]
  have hcurrent : s.current = ⟨"éx1é", "shell", 2, 3, some 'x', 1⟩ := by
    have hrun : (Reader.run? "éx1é" none [.readOctet, .next]).map Session.current =
        some ⟨"éx1é", "shell", 2, 3, some 'x', 1⟩ := by decide +kernel
    rwa [hs, Option.map_some, Option.some_inj] at hrun
  have hcut : s.current.Slices 2 4 := by
    have hstart : s.current.skipBlanks.markStart.position = 2 := by
      rw [hcurrent]
      decide +kernel
    have hstop : (s.current.skipBlanks.markStart.readWhile isWordChar).position = 4 := by
      rw [hcurrent]
      decide +kernel
    rw [← hstart, ← hstop]
    refine .word (x := 'x') ?_ rfl
    rw [hcurrent]
    decide +kernel
  obtain ⟨-, -, -, hvalid, hslice, -, -, -⟩ := hslices 2 4 hcut
  refine ⟨s, t, r, hs, hcut, ht, hslice, hvalid, ?_⟩
  have hnext : s.current.next?.map (·.1.literal) = some "x1" := by
    rw [hcurrent]
    decide +kernel
  rwa [ht, Option.map_some, Option.some_inj] at hnext

end MonkeyLang
