import MonkeyLang.Proofs.CommandLine.FarFault
import MonkeyLang.Proofs.Parser.Standard
import MonkeyLang.Proofs.Text.Numeral
import MonkeyLang.Proofs.Text.Octets
import MonkeyLang.Proofs.Token.Canonical
import MonkeyLang.Proofs.Token.Concat

/-!
# Printing and parsing back

A printed program is parsed back without a fault and without the values of its statements, which
the parser does not keep. A printed value runs up to a semicolon and has nothing but semicolons
behind it, so it is skipped as one value and some empty statements. What the parser makes of any
text can therefore be printed and parsed again without a change (`parse_display`).
-/

namespace MonkeyLang

open Text

/-! ### Programs that can be parsed back -/

/-- No text that goes into a printed node has a semicolon in it. -/
def Node.NoSemicolon : Node → Prop
  | letStatement t name none => ';' ∉ t.literal.toList ∧ ';' ∉ name.value.toList
  | letStatement t name (some value) =>
    ';' ∉ t.literal.toList ∧ ';' ∉ name.value.toList ∧ value.NoSemicolon
  | identifier i => ';' ∉ i.value.toList
  | integer _ => True

/-- The `let` statements on a name, with any value that holds no semicolon. -/
inductive Node.Printable : Node → Prop
  | letStatement {name : String} {value : Option Node} (hname : IsName name)
      (hvalue : ∀ v ∈ value, v.NoSemicolon) :
      Printable (.letStatement ⟨.letWord, "let"⟩ (.ofToken ⟨.ident, name⟩) value)

/-- The statement without its value. -/
def Node.withoutValue : Node → Node
  | letStatement t name _ => letStatement t name none
  | identifier i => identifier i
  | integer i => integer i

def Program.Printable (p : Program) : Prop :=
  ∀ n ∈ p.statements, n.Printable

def Program.withoutValues (p : Program) : Program :=
  ⟨p.statements.map Node.withoutValue⟩

/-! ### The octets of printed nodes -/

theorem semicolon_not_mem_octets {s : String} (h : ';' ∉ s.toList) : ';' ∉ octets s := by
  rwa [mem_octets_iff_of_lt (by decide)]

theorem semicolon_not_mem_ofInt64 (n : Int64) : ';' ∉ (ofInt64 n).toList := by
  have hrepr (m : Nat) : ';' ∉ (Nat.repr m).toList := fun h =>
    absurd ((isDigits_repr m).isDigit _ h) (by decide)
  rw [ofInt64]
  split
  · rw [String.toList_append, List.mem_append, not_or]
    exact ⟨by decide, hrepr _⟩
  · exact hrepr _

theorem octets_display_letStatement (t : Token) (name : Identifier) (value : Option Node) :
    octets (Node.letStatement t name value).display =
      octets t.literal ++ ' ' :: (octets name.value ++ ' ' :: '=' :: ' ' ::
        (octets ((value.map Node.display).getD "") ++ [';'])) := by
  have hspace : octets " " = [' '] := by decide
  cases value with
  | none =>
    have hend : octets " = ;" = [' ', '=', ' ', ';'] := by decide
    simp [Node.display, Identifier.display, hspace, hend]
  | some v =>
    have hsign : octets " = " = [' ', '=', ' '] := by decide
    simp [Node.display, Identifier.display, hspace, hsign]

/-- A printed node is a text without semicolons, and then semicolons. -/
theorem exists_octets_display :
    ∀ {n : Node}, n.NoSemicolon →
      ∃ us k, ';' ∉ us ∧ octets n.display = us ++ List.replicate k ';'
  | .letStatement t name none, ⟨hword, hname⟩ => by
    rw [octets_display_letStatement]
    refine ⟨octets t.literal ++ ' ' :: (octets name.value ++ [' ', '=', ' ']), 1, ?_, ?_⟩
    · simp [semicolon_not_mem_octets hword, semicolon_not_mem_octets hname]
    · simp
  | .letStatement t name (some value), ⟨hword, hname, hvalue⟩ => by
    obtain ⟨us, k, hus, hoctets⟩ := exists_octets_display hvalue
    rw [octets_display_letStatement]
    refine ⟨octets t.literal ++ ' ' :: (octets name.value ++ ' ' :: '=' :: ' ' :: us), k + 1,
      ?_, ?_⟩
    · simp [semicolon_not_mem_octets hword, semicolon_not_mem_octets hname, hus]
    · simp [hoctets, List.replicate_succ']
  | .identifier i, hvalue => by
    refine ⟨octets i.value, 0, semicolon_not_mem_octets hvalue, ?_⟩
    rw [List.replicate_zero, List.append_nil]
    rfl
  | .integer i, _ => by
    refine ⟨octets (ofInt64 i.value), 0, ?_, ?_⟩
    · exact semicolon_not_mem_octets (semicolon_not_mem_ofInt64 i.value)
    · rw [List.replicate_zero, List.append_nil]
      rfl

theorem IsName.octets_eq {name : String} (h : IsName name) : octets name = name.toList := by
  obtain ⟨c, cs, hlist, hc, hcs, -⟩ := h
  apply octets_of_forall_lt
  intro d hd
  rw [hlist] at hd
  apply toNat_lt_of_isWordChar
  rcases List.mem_cons.1 hd with rfl | hd
  · exact isWordChar_of_isLetter hc
  · exact hcs d hd

/-- A printed `let` statement up to its value. -/
def printedHead (name : String) : List Char :=
  ['l', 'e', 't', ' '] ++ name.toList ++ [' ', '=', ' ']

/-- A printed statement is a `let` head, a text without semicolons, and then semicolons. -/
theorem exists_octets_display_of_isName {name : String} {value : Option Node}
    (hname : IsName name) (hvalue : ∀ v ∈ value, v.NoSemicolon) :
    ∃ us k, ';' ∉ us ∧
      octets (Node.letStatement ⟨.letWord, "let"⟩ (.ofToken ⟨.ident, name⟩) value).display =
        printedHead name ++ (us ++ ';' :: List.replicate k ';') := by
  have hvalue' : ∃ us k, ';' ∉ us ∧
      octets ((value.map Node.display).getD "") = us ++ List.replicate k ';' := by
    cases value with
    | none => exact ⟨[], 0, List.not_mem_nil, octets_empty⟩
    | some v => exact exists_octets_display (hvalue v rfl)
  obtain ⟨us, k, hus, hoctets⟩ := hvalue'
  have hsemicolons : List.replicate k ';' ++ [';'] = ';' :: List.replicate k ';' := by
    rw [← List.replicate_succ', List.replicate_succ]
  have hlet : octets "let" = ['l', 'e', 't'] := by decide
  refine ⟨us, k, hus, ?_⟩
  rw [octets_display_letStatement, hoctets, hlet, List.append_assoc, hsemicolons]
  show _ ++ ' ' :: (octets name ++ _) = _
  simp [printedHead, hname.octets_eq]

/-! ### The tokens of printed statements -/

theorem scan_printedHead {name : String} (hname : IsName name) (offset : Nat)
    (cs : List Char) :
    ∃ i j k : Nat,
      scan offset (printedHead name ++ cs) =
        ⟨⟨.letWord, "let"⟩, offset⟩ :: ⟨⟨.ident, name⟩, i⟩ :: ⟨⟨.assign, "="⟩, j⟩ ::
          scan k cs := by
  have hhead : printedHead name ++ cs =
      "let".toList ++ ' ' :: (name.toList ++ ' ' :: ("=".toList ++ ' ' :: cs)) := by
    simp [printedHead]
  rw [hhead, (Canonical.regular (.fixed (.keyword .letWord))).scan_append_blank (by decide),
    (Canonical.regular (.ident hname)).scan_append_blank (by decide),
    (Canonical.regular (.fixed .assign)).scan_append_blank (by decide)]
  exact ⟨_, _, _, rfl⟩

/-- Only a semicolon is scanned as one. -/
theorem kind_ne_semicolon_of_mem_scan {offset : Nat} {cs : List Char} {t : LocatedToken}
    (hcs : ';' ∉ cs) (ht : t ∈ scan offset cs) : t.kind ≠ .semicolon := by
  obtain ⟨n, -, hfirst⟩ := firstToken_of_mem_scan ht
  intro hkind
  have hhead : (cs.drop n).head? = some ';' := hfirst.head?_of_semicolon hkind
  exact hcs (List.mem_of_mem_drop (List.mem_of_mem_head? hhead))

/-! ### What printed statements give -/

section

variable (file : String) (stop : LocatedToken)

/-- A `let` head, a value and its semicolon give the statement without the value. -/
theorem gather_segments_of_letHead {t name sign semi : LocatedToken} {us : List LocatedToken}
    (hlet : t.kind = .letWord) (hname : name.kind = .ident) (hsign : sign.kind = .assign)
    (hus : ∀ u ∈ us, u.kind ≠ .semicolon) (hsemi : semi.kind = .semicolon)
    (vs : List LocatedToken) :
    gather file (segments stop (t :: name :: sign :: (us ++ semi :: vs))) =
      (.letStatement t.token (.ofToken name.token) none :: (gather file (segments stop vs)).1,
        (gather file (segments stop vs)).2) := by
  have hdrop : (us ++ semi :: vs).dropWhile (·.kind ≠ .semicolon) = semi :: vs := by
    rw [List.dropWhile_append_of_pos, List.dropWhile_cons_of_neg (by simpa using hsemi)]
    intro u hu
    simpa using hus u hu
  rw [gather_segments_cons_of_let hlet, gatherInside_cons_of_letHead hlet hname hsign, hdrop,
    List.tail_cons]

/-- Semicolons in front of a text give nothing. -/
theorem gather_scan_semicolons (k offset : Nat) (cs : List Char) :
    gather file (segments stop (scan offset (List.replicate k ';' ++ cs))) =
      gather file (segments stop (scan (offset + k) cs)) := by
  induction k generalizing offset with
  | zero => rfl
  | succ k ih =>
    rw [List.replicate_succ, List.cons_append, scan_semicolon,
      gather_segments_cons_of_semicolon rfl, ih, Nat.add_assoc, Nat.add_comm 1]

/-- A printed statement in front of a text gives itself, without its value. -/
theorem exists_gather_scan_display {n : Node} (hn : n.Printable) (offset : Nat)
    (cs : List Char) :
    ∃ k, gather file (segments stop (scan offset (octets n.display ++ cs))) =
      (n.withoutValue :: (gather file (segments stop (scan k cs))).1,
        (gather file (segments stop (scan k cs))).2) := by
  obtain ⟨hname, hvalue⟩ := hn
  obtain ⟨us, m, hus, hoctets⟩ := exists_octets_display_of_isName hname hvalue
  obtain ⟨i, j, k, hscan⟩ :=
    scan_printedHead hname offset (us ++ ';' :: (List.replicate m ';' ++ cs))
  have hvalue : ∀ u ∈ scan k us, u.kind ≠ .semicolon :=
    fun u hu => kind_ne_semicolon_of_mem_scan hus hu
  -- the first semicolon behind the value ends the statement, the others are empty statements
  rw [hoctets, List.append_assoc, List.append_assoc, List.cons_append, hscan,
    scan_append_cons_semicolon, gather_segments_of_letHead file stop rfl rfl rfl hvalue rfl,
    gather_scan_semicolons]
  exact ⟨_, rfl⟩

/-- Printed statements in front of a text give themselves, without their values. -/
theorem exists_gather_scan_join {ns : List Node} (hns : ∀ n ∈ ns, n.Printable) (offset : Nat)
    (cs : List Char) :
    ∃ k, gather file (segments stop (scan offset
        (octets (String.join (ns.map Node.display)) ++ cs))) =
      (ns.map Node.withoutValue ++ (gather file (segments stop (scan k cs))).1,
        (gather file (segments stop (scan k cs))).2) := by
  induction ns generalizing offset with
  | nil =>
    refine ⟨offset, ?_⟩
    rw [List.map_nil, String.join_nil, octets_empty]
    rfl
  | cons n ns ih =>
    have htail : ∀ m ∈ ns, m.Printable := fun m hm => hns m (List.mem_cons_of_mem n hm)
    rw [List.map_cons, String.join_cons, octets_append, List.append_assoc]
    obtain ⟨k, hk⟩ := exists_gather_scan_display file stop (hns n List.mem_cons_self) offset
      (octets (String.join (ns.map Node.display)) ++ cs)
    obtain ⟨l, hl⟩ := ih htail k
    refine ⟨l, ?_⟩
    rw [hk, hl]
    rfl

end

/-- A printed program with blanks behind it is parsed back. -/
theorem parse_display_append {p : Program} (hp : p.Printable) {blanks : String}
    (hblanks : ∀ c ∈ octets blanks, isBlank c) (file : Option String) :
    parse (p.display ++ blanks) file = (p.withoutValues, #[]) := by
  have hwords : (Cursor.ofSource (p.display ++ blanks) file).words =
      scan 0 (octets p.display ++ octets blanks) := congrArg (scan 0) (octets_append _ _)
  rw [parse_eq_gather, Cursor.segments, hwords]
  generalize (Cursor.ofSource (p.display ++ blanks) file).stop = stop
  obtain ⟨k, hk⟩ :=
    exists_gather_scan_join (file.getD Cursor.defaultFile) stop hp 0 (octets blanks)
  rw [Program.display, hk, scan_of_forall_isBlank hblanks]
  exact Prod.ext (congrArg Program.mk (List.append_nil _)) rfl

/-! ### Parsed programs can be printed -/

theorem exists_of_letHead? {ts : List Token} {n : Node} (h : letHead? ts = some n) :
    ∃ t ∈ ts, ∃ name ∈ ts, t.kind = .letWord ∧ name.kind = .ident ∧
      n = .letStatement t (.ofToken name) none := by
  match ts with
  | [] | [_] | [_, _] => cases h
  | t :: name :: sign :: ts =>
    rw [letHead?] at h
    split at h
    · rename_i hkinds
      cases h
      exact ⟨t, by simp, name, by simp, hkinds.1, hkinds.2.1, rfl⟩
    · cases h

theorem exists_of_firstLet? {ts : List Token} {n : Node} (h : firstLet? ts = some n) :
    ∃ t ∈ ts, ∃ name ∈ ts, t.kind = .letWord ∧ name.kind = .ident ∧
      n = .letStatement t (.ofToken name) none := by
  obtain ⟨us, hus, hhead⟩ := List.exists_of_findSome?_eq_some h
  have hsuffix : us <:+ ts := (List.mem_tails us ts).1 hus
  obtain ⟨t, ht, name, hname, hn⟩ := exists_of_letHead? hhead
  exact ⟨t, hsuffix.subset ht, name, hsuffix.subset hname, hn⟩

/-- The tokens of a segment are scanned from the text, but for the one that ends the text. -/
theorem exists_firstToken_of_mem_segments {source : String} {file : Option String} {s : Segment}
    {t : Token} (hs : s ∈ (Cursor.ofSource source file).segments)
    (ht : t ∈ s.tokens.map LocatedToken.token) : ∃ cs, FirstToken cs t := by
  obtain ⟨u, hu, rfl⟩ := List.mem_map.1 ht
  have hmem : u ∈ (Cursor.ofSource source file).words ++
      [(Cursor.ofSource source file).stop] := by
    rw [← flatMap_segments]
    exact List.mem_flatMap.2 ⟨s, hs, List.mem_append_left _ hu⟩
  rcases List.mem_append.1 hmem with hword | hstop
  · obtain ⟨n, -, hfirst⟩ := firstToken_of_mem_scan hword
    exact ⟨_, hfirst⟩
  · rw [List.mem_singleton.1 hstop]
    exact ⟨[], .stop⟩

/-- The statements that are parsed are `let` statements on names, without values. -/
theorem exists_isName_of_mem_parse {source : String} {file : Option String} {n : Node}
    (hn : n ∈ (parse source file).1.statements) :
    ∃ name, IsName name ∧ n = .letStatement ⟨.letWord, "let"⟩ (.ofToken ⟨.ident, name⟩) none := by
  rw [parse_eq_gather] at hn
  obtain ⟨s, hs, hnode⟩ := List.mem_filterMap.1 hn
  obtain ⟨t, ht, name, hname, hlet, hident, rfl⟩ := exists_of_firstLet? hnode
  obtain ⟨cs, htoken⟩ := exists_firstToken_of_mem_segments hs ht
  obtain ⟨ds, hnameToken⟩ := exists_firstToken_of_mem_segments hs hname
  refine ⟨name.literal, hnameToken.isName hident, ?_⟩
  obtain ⟨kind, literal⟩ := t
  obtain ⟨kind', literal'⟩ := name
  obtain rfl : kind = .letWord := hlet
  obtain rfl : kind' = .ident := hident
  obtain rfl : literal = "let" := htoken.literal_of_letWord rfl
  rfl

theorem printable_parse (source : String) (file : Option String) :
    (parse source file).1.Printable := by
  intro n hn
  obtain ⟨name, hname, rfl⟩ := exists_isName_of_mem_parse hn
  exact .letStatement hname nofun

theorem withoutValues_parse (source : String) (file : Option String) :
    (parse source file).1.withoutValues = (parse source file).1 := by
  have hsame : ∀ n ∈ (parse source file).1.statements, n.withoutValue = id n := by
    intro n hn
    obtain ⟨name, hname, rfl⟩ := exists_isName_of_mem_parse hn
    rfl
  rw [Program.withoutValues, List.map_congr_left hsame, List.map_id]

/-- What is parsed can be printed and parsed again, with blanks behind it. -/
theorem parse_display_parse_append (source : String) (file file' : Option String)
    {blanks : String} (hblanks : ∀ c ∈ octets blanks, isBlank c) :
    parse ((parse source file).1.display ++ blanks) file' = ((parse source file).1, #[]) := by
  rw [parse_display_append (printable_parse source file) hblanks, withoutValues_parse]

theorem isBlank_of_mem_octets_empty : ∀ c ∈ octets "", isBlank c := by
  rw [octets_empty]
  exact nofun

theorem parse_empty (file : Option String) : parse "" file = (⟨[]⟩, #[]) :=
  parse_display_append (p := ⟨[]⟩) nofun isBlank_of_mem_octets_empty file

/-- What a run has printed of a source is read back by another run. If the caret of each diagnostic
fits then that run prints it again; if not there is nothing to read back but the empty program. -/
theorem outcome_of_stdout {read read' : Option String → Except ReadError ByteArray}
    {args args' : List String} {path path' : Option String} {source : String}
    (hargs : Command.ofArgs args = .print .program path)
    (hdecode : CommandLine.decode (read path) = .ok source)
    (hargs' : Command.ofArgs args' = .print .program path')
    (hread' : read' path' = .ok (CommandLine.outcome read args).stdout.toUTF8) :
    CommandLine.outcome read' args' = ⟨0, (CommandLine.outcome read args).stdout, ""⟩ ↔
      ∀ d ∈ (parse source (some (CommandLine.sourceName path))).2, d.CaretFits source := by
  have hrun : CommandLine.outcome read args =
      CommandLine.printSource .program (CommandLine.sourceName path) source := by
    rw [CommandLine.outcome_of_print hargs, CommandLine.printInput_of_decode hdecode]
  rw [CommandLine.outcome_of_print hargs', hread',
    CommandLine.printInput_of_decode (CommandLine.decode_toUTF8 _), hrun]
  rcases CommandLine.caretFits_or_exists_first source
    (parse source (some (CommandLine.sourceName path))).2 with hfits |
    ⟨before, d, behind, hsplit, hbefore, hd⟩
  · have hnewline : ∀ c ∈ octets "\n", isBlank c := by
      have hoctets : octets "\n" = ['\n'] := by decide
      rw [hoctets, List.forall_mem_singleton]
      rfl
    rw [CommandLine.printSource_of_caretFits rfl hfits]
    refine iff_of_true ?_ hfits
    exact CommandLine.printSource_of_parse (parse_display_parse_append _ _ _ hnewline)
  · refine iff_of_false ?_ (CommandLine.not_forall_caretFits hsplit hd)
    rw [CommandLine.printSource_of_not_caretFits hsplit hbefore hd,
      CommandLine.printSource_of_parse (parse_empty _)]
    intro h
    have hline : ("" ++ "\n" : String) = "" := congrArg Outcome.stdout h
    exact absurd hline (by decide)

/-- A printed program is parsed back without its values and without a diagnostic. So printing and
parsing what is parsed changes nothing. The program prints its own output again, exactly if the
caret of each diagnostic on the source fits. -/
theorem parse_display (p : Program) (source : String) :
    (p.Printable → ∀ file, parse p.display file = (p.withoutValues, #[])) ∧
      (∀ file file', parse (parse source file).1.display file' = ((parse source file).1, #[])) ∧
      ∀ read args path, Command.ofArgs args = .print .program path →
        CommandLine.decode (read path) = .ok source →
        ∀ read' args' path', Command.ofArgs args' = .print .program path' →
          read' path' = .ok (CommandLine.outcome read args).stdout.toUTF8 →
          (CommandLine.outcome read' args' = ⟨0, (CommandLine.outcome read args).stdout, ""⟩ ↔
            ∀ d ∈ (parse source (some (CommandLine.sourceName path))).2, d.CaretFits source) := by
  refine ⟨?_, ?_, ?_⟩
  · intro hp file
    have hparse := parse_display_append hp isBlank_of_mem_octets_empty file
    rwa [String.append_empty] at hparse
  · intro file file'
    have hparse := parse_display_parse_append source file file' isBlank_of_mem_octets_empty
    rwa [String.append_empty] at hparse
  · intro read args path hargs hdecode read' args' path' hargs' hread'
    exact outcome_of_stdout hargs hdecode hargs' hread'

/-- Nested values are dropped with the semicolons they leave behind, and what is printed of a text
with a fault is printed again from a file. -/
theorem parse_display_nested :
    let inner : Node :=
      .letStatement ⟨.letWord, "let"⟩ (.ofToken ⟨.ident, "y"⟩)
        (some (.integer ⟨⟨.int, "7"⟩, -7⟩))
    let p : Program :=
      ⟨[.letStatement ⟨.letWord, "let"⟩ (.ofToken ⟨.ident, "x"⟩) (some inner),
        .letStatement ⟨.letWord, "let"⟩ (.ofToken ⟨.ident, "lets"⟩) none]⟩
    let read : Option String → Except ReadError ByteArray := fun _ => .ok "5; let y = 6".toUTF8
    let read' : Option String → Except ReadError ByteArray := fun _ => .ok "let y = ;\n".toUTF8
    p.Printable ∧ p.display = "let x = let y = -7;;let lets = ;" ∧
      parse "let x = let y = -7;;let lets = ;" none = (p.withoutValues, #[]) ∧
      (∀ d ∈ (parse "5; let y = 6" (some "stdin")).2, d.CaretFits "5; let y = 6") ∧
      (CommandLine.outcome read []).exitCode = 1 ∧
      (CommandLine.outcome read []).stdout = "let y = ;\n" ∧
      CommandLine.outcome read' ["printed.mk"] = ⟨0, "let y = ;\n", ""⟩ := by
  intro inner p read read'
  have hp : p.Printable := by
    have hinner : inner.NoSemicolon := ⟨by decide, by decide, trivial⟩
    refine List.forall_mem_cons.2 ⟨?_, List.forall_mem_cons.2 ⟨?_, nofun⟩⟩
    · refine .letStatement (by decide) ?_
      rintro v ⟨⟩
      exact hinner
    · exact .letStatement (by decide) nofun
  have hdisplay : p.display = "let x = let y = -7;;let lets = ;" := by decide +kernel
  obtain ⟨hprint, -, hdriver⟩ := parse_display p "5; let y = 6"
  have hread : CommandLine.outcome read [] =
      CommandLine.printSource .program "stdin" "5; let y = 6" :=
    (CommandLine.outcome_of_print rfl).trans
      (CommandLine.printInput_of_decode (CommandLine.decode_toUTF8 _) _ _)
  have hstdout : (CommandLine.outcome read []).stdout = "let y = ;\n" := by
    rw [hread]
    decide +kernel
  have hcode : (CommandLine.outcome read []).exitCode = 1 := by
    rw [hread]
    decide +kernel
  have hfits : ∀ d ∈ (parse "5; let y = 6" (some "stdin")).2, d.CaretFits "5; let y = 6" := by
    decide +kernel
  refine ⟨hp, hdisplay, ?_, hfits, hcode, hstdout, ?_⟩
  · rw [← hdisplay]
    exact hprint hp none
  · rw [← hstdout]
    exact (hdriver read [] none rfl (CommandLine.decode_toUTF8 _) read'
      ["printed.mk"] (some "printed.mk") rfl (by rw [hstdout])).2 hfits

/-- Of a source whose only fault has no report nothing is printed, and what is printed of nothing is
a line feed. -/
theorem parse_display_farFault :
    let read : Option String → Except ReadError ByteArray := fun _ =>
      .ok (farFault 70000).toUTF8
    let read' : Option String → Except ReadError ByteArray := fun _ =>
      .ok (CommandLine.outcome read []).stdout.toUTF8
    (parse (farFault 70000) (some "stdin")).1.display = "let x = ;" ∧
      (CommandLine.outcome read []).stdout = "" ∧
      CommandLine.outcome read' [] = ⟨0, "\n", ""⟩ := by
  intro read read'
  have hstdout : (CommandLine.outcome read []).stdout = "" := by
    rw [outcome_of_farFault rfl (by decide) (by decide)]
  have hread' : read' none = .ok "".toUTF8 := congrArg (Except.ok ∘ String.toUTF8) hstdout
  refine ⟨(parse_farFault 70000).1, hstdout, ?_⟩
  rw [CommandLine.outcome_of_print rfl, hread',
    CommandLine.printInput_of_decode (CommandLine.decode_toUTF8 _),
    CommandLine.printSource_of_parse (parse_empty _)]
  decide

end MonkeyLang
