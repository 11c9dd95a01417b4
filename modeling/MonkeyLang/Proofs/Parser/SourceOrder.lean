import Mathlib.Algebra.Group.Nat.Defs
import MonkeyLang.Proofs.Parser.Blame
import MonkeyLang.Proofs.Parser.Standard
import MonkeyLang.Proofs.Token.Boundary

/-!
# Diagnostics in source order

Whichever kinds of token start a statement, the diagnostics on a program come in the order of the
tokens that they blame. One token is blamed twice only if it is an integer in the place of another
token and then, as a statement by itself, no number (`diagnostics_parseProgram`). In the language
no integer is a statement, so there every token is blamed once, and none in the middle of a
character.
-/

namespace MonkeyLang

open Text

/-- The place of a diagnostic in source order: by its offset, and at one offset the fault of a
number last. -/
def Diagnostic.rank (d : Diagnostic) : Nat :=
  match d.fault with
  | .invalidNumber _ => 2 * d.position.offset.toNat + 1
  | _ => 2 * d.position.offset.toNat

theorem Diagnostic.two_mul_le_rank (d : Diagnostic) : 2 * d.position.offset.toNat ≤ d.rank := by
  rw [rank]
  split <;> omega

theorem Diagnostic.rank_le (d : Diagnostic) : d.rank ≤ 2 * d.position.offset.toNat + 1 := by
  rw [rank]
  split <;> omega

/-- Offsets that fit the word are recorded as they are. -/
theorem toNat_offset_position {t : LocatedToken} (ht : t.offset < 2 ^ 32) (file : String) :
    (t.position file).offset.toNat = t.offset := by
  rw [LocatedToken.position, UInt32.toNat_ofNat']
  exact Nat.mod_eq_of_lt ht

namespace Batch

variable {b : Batch} {t u : LocatedToken} {ts rest l : List LocatedToken} {d e : Diagnostic}

/-! ### What a diagnostic says of the token that it blames -/

theorem Blames.mem (h : b.Blames l d u) : u ∈ l := by
  cases h with
  | unexpected kind hl hv => simp [hl]
  | unrecognised hl hu hfront => simp [hl]
  | invalidNumber hl hu => exact hl

theorem Blames.found_eq (h : b.Blames l d u) : d.fault.found = u.token := by
  cases h <;> rfl

theorem Blames.position_eq (h : b.Blames l d u) : d.position = u.position b.file := by
  cases h <;> rfl

theorem Blames.offset_eq (h : b.Blames l d u) (hu : u.offset < 2 ^ 32) :
    d.position.offset.toNat = u.offset := by
  rw [h.position_eq]
  exact toNat_offset_position hu b.file

/-- The first token is blamed only if it starts no statement or is no number. -/
theorem Blames.head_or_mem (h : b.Blames (t :: l) d u) :
    u = t ∧ (b.table t.kind = none ∨ d.rank = 2 * d.position.offset.toNat + 1) ∨ u ∈ l := by
  cases h with
  | @unexpected front rest v u kind hl hv =>
    right
    cases front with
    | nil =>
      obtain ⟨rfl, rfl⟩ := List.cons.inj hl
      exact List.mem_cons_self
    | cons w front =>
      obtain ⟨rfl, rfl⟩ := List.cons.inj hl
      simp
  | @unrecognised front rest u hl hu hfront =>
    cases front with
    | nil =>
      obtain ⟨rfl, rfl⟩ := List.cons.inj hl
      exact .inl ⟨rfl, .inl hu⟩
    | cons w front =>
      obtain ⟨rfl, rfl⟩ := List.cons.inj hl
      right
      simp
  | invalidNumber hl hu => exact (List.mem_cons.1 hl).imp_left fun heq => ⟨heq, .inr rfl⟩

/-- The tokens stand in the text as they come in the list, and their offsets fit the word in which
they are recorded. -/
structure Ordered (b : Batch) (ts : List LocatedToken) : Prop where
  increasing : (ts ++ [b.stop]).Pairwise fun t u => t.offset < u.offset
  stop_lt : b.stop.offset < 2 ^ 32

namespace Ordered

theorem of_suffix (h : b.Ordered ts) (hsuffix : rest <:+ ts) : b.Ordered rest := by
  refine ⟨h.increasing.sublist ?_, h.stop_lt⟩
  exact hsuffix.sublist.append (List.Sublist.refl _)

theorem offset_lt (h : b.Ordered ts) (hu : u ∈ ts ++ [b.stop]) : u.offset < 2 ^ 32 := by
  rcases List.mem_append.1 hu with hu | hu
  · have hlt := (List.pairwise_append.1 h.increasing).2.2 u hu b.stop List.mem_cons_self
    exact hlt.trans h.stop_lt
  · rw [List.mem_singleton.1 hu]
    exact h.stop_lt

theorem lt_of_mem (h : b.Ordered (t :: ts)) (hu : u ∈ ts ++ [b.stop]) : t.offset < u.offset :=
  List.rel_of_pairwise_cons h.increasing hu

end Ordered

/-! ### The order of diagnostics -/

/-- What is parsed behind a token blames tokens behind it. -/
theorem lt_rank_of_suffix (h : b.Ordered (t :: ts)) (hsuffix : rest <:+ ts)
    (hd : d ∈ (b.parseAll rest).2) : 2 * t.offset + 1 < d.rank := by
  obtain ⟨u, hblames⟩ := exists_blames_of_mem_parseAll b rest d hd
  have hu : u ∈ ts ++ [b.stop] :=
    (hsuffix.sublist.append (List.Sublist.refl [b.stop])).subset hblames.mem
  have hlt := h.lt_of_mem hu
  have hoffset := hblames.offset_eq (h.offset_lt (List.mem_cons_of_mem t hu))
  have hrank := d.two_mul_le_rank
  omega

/-- A token that starts a statement is blamed by that statement only as a number. -/
theorem lt_rank_of_isSome (h : b.Ordered (t :: ts)) (ht : (b.table t.kind).isSome)
    (hd : d ∈ (b.parseAll (t :: ts)).2) : 2 * t.offset < d.rank := by
  obtain ⟨u, hblames⟩ := exists_blames_of_mem_parseAll b (t :: ts) d hd
  have hoffset := hblames.offset_eq (h.offset_lt hblames.mem)
  rw [List.cons_append] at hblames
  rcases hblames.head_or_mem with ⟨rfl, hnone | hrank⟩ | hu
  · rw [hnone] at ht
    cases ht
  · omega
  · have hlt := h.lt_of_mem hu
    have hrank := d.two_mul_le_rank
    omega

theorem resume_cons_suffix (ht : ¬ (b.table t.kind).isSome) : b.resume (t :: ts) <:+ ts := by
  rw [resume, if_neg ht]
  split
  · exact List.suffix_refl ts
  · exact b.resume_suffix ts

/-- After a fault only tokens further on are blamed, or once more a number. -/
theorem Fails.rank_lt (hfails : b.Fails (t :: ts) d rest) (h : b.Ordered (t :: ts))
    (he : e ∈ (b.parseAll (b.resume rest)).2) : d.rank < e.rank := by
  have hhead : (t.position b.file).offset.toNat = t.offset :=
    toNat_offset_position (h.offset_lt List.mem_cons_self) b.file
  cases hfails with
  | unrecognised hts ht =>
    obtain ⟨rfl, rfl⟩ := List.cons.inj hts
    have hlt := lt_rank_of_suffix h (b.resume_suffix _) he
    have hle := (Diagnostic.unrecognised b.file t).rank_le
    exact Nat.lt_of_le_of_lt (hhead ▸ hle) hlt
  | invalidNumber hts ht =>
    obtain ⟨rfl, rfl⟩ := List.cons.inj hts
    have hlt := lt_rank_of_suffix h (b.resume_suffix _) he
    have hle := (Diagnostic.mk (.invalidNumber t.token) (t.position b.file)).rank_le
    exact Nat.lt_of_le_of_lt (hhead ▸ hle) hlt
  | @unexpected front rest v kind hts hv =>
    cases rest with
    | nil =>
      rw [resume, parseAll] at he
      cases he
    | cons u rest =>
      have hordered : b.Ordered (u :: rest) := by
        apply h.of_suffix
        rw [hts]
        exact (List.suffix_cons v _).trans (List.suffix_append front _)
      have hrank : (Diagnostic.unexpected b.file kind u).rank = 2 * u.offset :=
        congrArg (2 * ·) (toNat_offset_position (hordered.offset_lt List.mem_cons_self) b.file)
      rw [head, List.headD_cons, hrank]
      by_cases hu : (b.table u.kind).isSome
      · rw [resume, if_pos hu] at he
        exact lt_rank_of_isSome hordered hu he
      · have hlt := lt_rank_of_suffix hordered (resume_cons_suffix hu) he
        exact (Nat.lt_succ_self _).trans hlt

/-- The diagnostics come in source order. -/
theorem pairwise_rank_parseAll (h : b.Ordered ts) :
    (b.parseAll ts).2.Pairwise fun d e => d.rank < e.rank := by
  induction ts using parseAll.induct b with
  | case1 =>
    rw [parseAll]
    exact List.Pairwise.nil
  | case2 t ts node? hresult ih =>
    rw [parseAll_of_ok (Prod.ext hresult rfl)]
    exact ih (h.of_suffix ((List.tail_suffix _).trans (b.parseStatement_suffix (t :: ts))))
  | case3 t ts d hresult ih =>
    have hfails : b.Fails (t :: ts) d _ := fails_of_parseStatement (Prod.ext hresult rfl)
    rw [parseAll_of_error (Prod.ext hresult rfl)]
    refine List.pairwise_cons.2 ⟨fun e he => hfails.rank_lt h he, ih (h.of_suffix ?_)⟩
    exact (b.resume_suffix _).trans ((List.tail_suffix _).trans (b.parseStatement_suffix _))

theorem Ordered.eq_of_offset_eq (h : b.Ordered ts) (ht : t ∈ ts ++ [b.stop])
    (hu : u ∈ ts ++ [b.stop]) (heq : t.offset = u.offset) : t = u := by
  by_contra hne
  have hsymm : Std.Symm fun t u : LocatedToken => t.offset ≠ u.offset := ⟨fun _ _ => Ne.symm⟩
  exact (h.increasing.imp Nat.ne_of_lt).forall ht hu hne heq

end Batch

/-- Diagnostics in the order of the text. Two of them stand at one offset only if the first found an
integer in the place of another token, and the second, right behind it, that it is no number. -/
structure InSourceOrder (ds : List Diagnostic) : Prop where
  monotone : ds.Pairwise fun d e => d.position.offset ≤ e.position.offset
  shared : ∀ (i j : Nat) (d e : Diagnostic), i < j → ds[i]? = some d → ds[j]? = some e →
    d.position.offset = e.position.offset →
      j = i + 1 ∧ ∃ kind t, t.kind = .int ∧ d.fault = .unexpectedToken kind t ∧
        e.fault = .invalidNumber t

namespace Batch

variable {b : Batch} {ts : List LocatedToken} {t u : LocatedToken} {d e : Diagnostic}

/-- Of two diagnostics on one token the first found it in the place of another, and the second found
it to be no number. -/
theorem faults_of_rank_lt (htable : ∀ kind, b.table kind = some .integer → kind = .int)
    {l : List LocatedToken} (hd : b.Blames l d u) (he : b.Blames l e u) (hlt : d.rank < e.rank) :
    ∃ kind t, t.kind = .int ∧ d.fault = .unexpectedToken kind t ∧ e.fault = .invalidNumber t := by
  have hle := d.two_mul_le_rank
  rw [hd.position_eq, ← he.position_eq] at hle
  have hfirst : 2 * e.position.offset.toNat < e.rank := Nat.lt_of_le_of_lt hle hlt
  cases he with
  | unexpected => exact absurd hfirst (Nat.lt_irrefl _)
  | unrecognised => exact absurd hfirst (Nat.lt_irrefl _)
  | invalidNumber _ hu =>
    cases hd with
    | unexpected kind => exact ⟨kind, u.token, htable _ hu, rfl, rfl⟩
    | unrecognised _ hnone =>
      rw [hu] at hnone
      cases hnone
    | invalidNumber => exact absurd hlt (Nat.lt_irrefl _)

theorem inSourceOrder_parseAll (htable : ∀ kind, b.table kind = some .integer → kind = .int)
    (h : b.Ordered ts) : InSourceOrder (b.parseAll ts).2 where
  monotone := by
    refine (pairwise_rank_parseAll h).imp ?_
    intro d e hlt
    have hle := d.two_mul_le_rank
    have hge := e.rank_le
    rw [UInt32.le_iff_toNat_le]
    omega
  shared := by
    intro i j d e hij hd he hoffset
    have hrank := List.pairwise_iff_getElem.1 (pairwise_rank_parseAll h)
    obtain ⟨hi, rfl⟩ := List.getElem?_eq_some_iff.1 hd
    obtain ⟨hj, rfl⟩ := List.getElem?_eq_some_iff.1 he
    have hle := Diagnostic.two_mul_le_rank (b.parseAll ts).2[i]
    have hge := Diagnostic.rank_le (b.parseAll ts).2[j]
    rw [← hoffset] at hge
    constructor
    · -- there is no rank left for a diagnostic between the two
      by_contra hne
      have hbetween : i + 1 < j := by omega
      have hleft := hrank i (i + 1) hi (hbetween.trans hj) (Nat.lt_succ_self i)
      have hright := hrank (i + 1) j (hbetween.trans hj) hj hbetween
      omega
    · obtain ⟨u, hu⟩ := exists_blames_of_mem_parseAll b ts _ (List.getElem_mem hi)
      obtain ⟨v, hv⟩ := exists_blames_of_mem_parseAll b ts _ (List.getElem_mem hj)
      have huv : u = v := by
        apply h.eq_of_offset_eq hu.mem hv.mem
        rw [← hu.offset_eq (h.offset_lt hu.mem), ← hv.offset_eq (h.offset_lt hv.mem), hoffset]
      subst huv
      exact faults_of_rank_lt htable hu hv (hrank i j hi hj hij)

end Batch

/-! ### Where the diagnostics on a text stand -/

theorem ordered_ofSource {source : String} (hsize : source.utf8ByteSize < 2 ^ 32)
    (file : Option String) (table : StatementTable) :
    ((Cursor.ofSource source file).batch table).Ordered (Cursor.ofSource source file).words where
  increasing := by
    have htokens := tokens_ofSource source file
    rw [Cursor.tokens_eq] at htokens
    show ((Cursor.ofSource source file).words ++ [(Cursor.ofSource source file).stop]).Pairwise _
    rw [htokens]
    exact (tiles_scan _).increasing
  stop_lt := by
    show 0 + (octets source).length < _
    rw [Nat.zero_add, length_octets_eq_utf8ByteSize]
    exact hsize

theorem isVisible_of_mem_tokens {source : String} {file : Option String} {t : LocatedToken}
    (ht : t ∈ (Cursor.ofSource source file).tokens) (hkind : t.kind ≠ .illegal) :
    ∀ c ∈ t.token.literal.toList, isVisible c := by
  rw [tokens_ofSource] at ht
  rcases List.mem_append.1 ht with ht | ht
  · exact isVisible_of_mem_scan ht hkind
  · rw [List.mem_singleton.1 ht]
    exact nofun

theorem StatementTable.standard_ne_integer (kind : TokenKind) :
    standard kind ≠ some .integer := by
  cases kind <;> exact nofun

/-- Nothing in the language starts or misses a token behind an illegal one. -/
theorem kind_ne_illegal_of_opens {file : String} {stop v : LocatedToken}
    (h : (Batch.standard file stop).Opens v) : v.kind ≠ .illegal := by
  rcases h with hstart | hident | hsemi
  · have hlet : v.kind = .letWord := (StatementTable.isSome_standard_iff v.kind).1 hstart
    simp [hlet]
  · simp [hident]
  · simp [hsemi]

theorem isValid_offset_of_blames {source : String} {file : Option String} {name : String}
    {stop u : LocatedToken} {d : Diagnostic}
    (h : (Batch.standard name stop).Blames (Cursor.ofSource source file).tokens d u) :
    String.Pos.Raw.IsValid source ⟨u.offset⟩ := by
  have hvisible {v : LocatedToken} (hv : v ∈ (Cursor.ofSource source file).tokens)
      (hopens : (Batch.standard name stop).Opens v) :
      ∀ c ∈ v.token.literal.toList, isVisible c :=
    isVisible_of_mem_tokens hv (kind_ne_illegal_of_opens hopens)
  cases h with
  | @unexpected front rest v u kind hl hv =>
    have hl' : (Cursor.ofSource source file).tokens = front ++ [v] ++ u :: rest := by
      rw [hl, List.append_assoc, List.singleton_append]
    refine isValid_offset hl' ?_
    intro w hw
    rw [List.getLast?_concat] at hw
    obtain rfl : v = w := Option.some.inj hw
    exact hvisible (by rw [hl]; simp) hv
  | unrecognised hl hu hfront =>
    refine isValid_offset hl ?_
    intro v hv
    refine hvisible ?_ (hfront v hv)
    rw [hl]
    exact List.mem_append_left _ (List.mem_of_getLast? hv)
  | invalidNumber hl hu => exact absurd hu (StatementTable.standard_ne_integer u.kind)

/-- A diagnostic blames a token of the text, and stands at its offset. -/
theorem exists_mem_tokens_of_mem_parseAll {source : String} {file : Option String}
    {table : StatementTable} {d : Diagnostic} (hsize : source.utf8ByteSize < 2 ^ 32)
    (hd : d ∈ (((Cursor.ofSource source file).batch table).parseAll
      (Cursor.ofSource source file).words).2) :
    ∃ u, ((Cursor.ofSource source file).batch table).Blames (Cursor.ofSource source file).tokens
        d u ∧ d.position.offset.toNat = u.offset := by
  obtain ⟨u, hu⟩ := Batch.exists_blames_of_mem_parseAll _ _ d hd
  have hoffset := hu.offset_eq ((ordered_ofSource hsize file table).offset_lt hu.mem)
  rw [Cursor.tokens_eq]
  exact ⟨u, hu, hoffset⟩

/-- A token of a text stands at its end or begins with an octet that is no blank. -/
theorem offset_eq_or_exists_getElem? {source : String} {file : Option String} {t : LocatedToken}
    (ht : t ∈ (Cursor.ofSource source file).tokens) :
    t.offset = source.utf8ByteSize ∨ ∃ c, (octets source)[t.offset]? = some c ∧ ¬ isBlank c := by
  rw [tokens_ofSource] at ht
  rcases List.mem_append.1 ht with ht | ht
  · exact .inr (exists_getElem?_of_mem_scan ht)
  · rw [List.mem_singleton.1 ht, ← length_octets_eq_utf8ByteSize]
    exact .inl rfl

/-- The parser with other rules. -/
def Parser.withTable (p : Parser) (table : StatementTable) : Parser :=
  { p with table := table }

theorem diagnostics_withTable (source : String) (file : Option String) (table : StatementTable) :
    ((Parser.ofCursor (.ofSource source file)).withTable
        table).parseProgram.2.diagnostics.toList =
      (((Cursor.ofSource source file).batch table).parseAll
        (Cursor.ofSource source file).words).2 := by
  have hreads : Parser.Reads (.ofSource source file) table #[]
      ((Parser.ofCursor (.ofSource source file)).withTable table)
      (Cursor.ofSource source file).words := ⟨0, rfl, rfl⟩
  rw [Parser.parseProgram, hreads.parseStatements.2.diagnostics_eq]
  simp

/-- A diagnostic on a program of the language blames a token, and stands at its offset. -/
theorem exists_blames_of_mem_parse {source : String} {file : Option String} {d : Diagnostic}
    (hsize : source.utf8ByteSize < 2 ^ 32) (hd : d ∈ (parse source file).2) :
    ∃ u, ((Cursor.ofSource source file).batch .standard).Blames
        (Cursor.ofSource source file).tokens d u ∧ d.position.offset.toNat = u.offset := by
  have hparse : (parse source file).2.toList = _ := diagnostics_withTable source file .standard
  rw [← Array.mem_toList_iff, hparse] at hd
  exact exists_mem_tokens_of_mem_parseAll hsize hd

/-- In the language no diagnostic is on a number, so all come in the order of their offsets. -/
theorem pairwise_offset_lt_parse {source : String} (hsize : source.utf8ByteSize < 2 ^ 32)
    (file : Option String) :
    (parse source file).2.toList.Pairwise fun d e => d.position.offset < e.position.offset := by
  have hparse : (parse source file).2.toList = _ := diagnostics_withTable source file .standard
  have hrank {d : Diagnostic} (hd : d ∈ (((Cursor.ofSource source file).batch .standard).parseAll
      (Cursor.ofSource source file).words).2) : d.rank = 2 * d.position.offset.toNat := by
    obtain ⟨u, hu, -⟩ := exists_mem_tokens_of_mem_parseAll hsize hd
    cases hu with
    | unexpected => rfl
    | unrecognised => rfl
    | invalidNumber _ hrule => exact absurd hrule (StatementTable.standard_ne_integer u.kind)
  rw [hparse]
  refine (Batch.pairwise_rank_parseAll (ordered_ofSource hsize file .standard)).imp_of_mem ?_
  intro d e hd he hlt
  rw [hrank hd, hrank he] at hlt
  exact UInt32.lt_iff_toNat_lt.2 (Nat.lt_of_mul_lt_mul_left hlt)

/-- Whichever kinds of token start a statement, parsing a program from its start gives diagnostics
that name the tokens that they stand at, in source order. In the language no two stand at one
offset, and each stands at the end of the text or where a character begins that is no blank. -/
theorem diagnostics_parseProgram {source : String} {file : Option String} {table : StatementTable}
    (hsize : source.utf8ByteSize < 2 ^ 32)
    (htable : ∀ kind, table kind = some .integer → kind = .int) :
    let p := (Parser.ofCursor (.ofSource source file)).withTable table
    let ds := p.parseProgram.2.diagnostics.toList
    (∀ d ∈ ds, ⟨d.fault.found, d.position.offset.toNat⟩ ∈ (Cursor.ofSource source file).tokens) ∧
      InSourceOrder ds ∧
      ((parse source file).2.toList.Pairwise fun d e =>
        d.position.offset < e.position.offset) ∧
      ∀ d ∈ (parse source file).2, d.position.offset.toNat = source.utf8ByteSize ∨
        String.Pos.Raw.IsValid source ⟨d.position.offset.toNat⟩ ∧
          ∃ c, (octets source)[d.position.offset.toNat]? = some c ∧ ¬ isBlank c := by
  intro p ds
  have hds : ds = _ := diagnostics_withTable source file table
  refine ⟨?_, ?_, pairwise_offset_lt_parse hsize file, ?_⟩
  · intro d hd
    rw [hds] at hd
    obtain ⟨u, hu, hoffset⟩ := exists_mem_tokens_of_mem_parseAll hsize hd
    rw [hu.found_eq, hoffset]
    exact hu.mem
  · rw [hds]
    exact Batch.inSourceOrder_parseAll htable (ordered_ofSource hsize file table)
  · intro d hd
    obtain ⟨u, hu, hoffset⟩ := exists_blames_of_mem_parse hsize hd
    rw [hoffset]
    refine (offset_eq_or_exists_getElem? hu.mem).imp_right fun hoctet => ⟨?_, hoctet⟩
    exact isValid_offset_of_blames hu

/-- A number that is too large stands in the place of a name, and is a statement that fails. -/
theorem diagnostics_parseProgram_number :
    let source := "é let 99999999999999999999"
    let table := StatementTable.standard.insert .int .integer
    let number : Token := ⟨.int, "99999999999999999999"⟩
    let ds := ((Parser.ofCursor (.ofSource source none)).withTable
      table).parseProgram.2.diagnostics.toList
    source.utf8ByteSize < 2 ^ 32 ∧ (∀ kind, table kind = some .integer → kind = .int) ∧
      ds = [⟨.unrecognisedStatement ⟨.illegal, "Ã"⟩, ⟨0, "shell"⟩⟩,
        ⟨.unexpectedToken .ident number, ⟨7, "shell"⟩⟩, ⟨.invalidNumber number, ⟨7, "shell"⟩⟩] ∧
      InSourceOrder ds ∧
      (parse source none).2.toList.Pairwise fun d e =>
        d.position.offset < e.position.offset := by
  intro source table number ds
  have hsize : source.utf8ByteSize < 2 ^ 32 := by decide
  have htable : ∀ kind, table kind = some .integer → kind = .int := by
    intro kind hkind
    cases kind <;> first | rfl | cases hkind
  obtain ⟨-, horder, hstandard, -⟩ := diagnostics_parseProgram hsize htable
  exact ⟨hsize, htable, by decide +kernel, horder, hstandard⟩

end MonkeyLang
