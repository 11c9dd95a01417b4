import MonkeyLang.Proofs.Parser.Segment

/-!
# Programs of the language

With the table of the language a program gives what its segments give, each by itself
(`Batch.parseAll_eq_gather`): the three loops that parse a statement, skip its value and recover
from a fault never carry anything over a semicolon.
-/

namespace MonkeyLang

namespace StatementTable

theorem standard_of_ne {kind : TokenKind} (h : kind ≠ .letWord) : standard kind = none := by
  cases kind <;> first | rfl | exact absurd rfl h

theorem isSome_standard_iff (kind : TokenKind) : (standard kind).isSome ↔ kind = .letWord := by
  by_cases h : kind = .letWord
  · simp [h, standard]
  · simp [h, standard_of_ne h]

end StatementTable

namespace Batch

variable {file : String} {stop t : LocatedToken} {ts : List LocatedToken}

/-- The rules of the language for a source text with the given end. -/
def standard (file : String) (stop : LocatedToken) : Batch :=
  ⟨.standard, file, stop⟩

/-! ### One statement -/

theorem parseStatement_of_semicolon (ht : t.kind = .semicolon) :
    (standard file stop).parseStatement (t :: ts) = (.ok none, t :: ts) := by
  have htable : StatementTable.standard t.kind = none := by
    rw [ht]
    rfl
  simp only [parseStatement, standard, head, List.headD_cons, htable]
  simp [ht]

theorem parseStatement_of_ne (hsemi : t.kind ≠ .semicolon) (hlet : t.kind ≠ .letWord) :
    (standard file stop).parseStatement (t :: ts) = (.error (.unrecognised file t), t :: ts) := by
  have htable : StatementTable.standard t.kind = none := StatementTable.standard_of_ne hlet
  simp only [parseStatement, standard, head, List.headD_cons, htable]
  simp [hsemi]

theorem parseStatement_of_let {result : Except Diagnostic Node} {rest : List LocatedToken}
    (hlet : t.kind = .letWord) (h : (standard file stop).parseLet (t :: ts) = (result, rest)) :
    (standard file stop).parseStatement (t :: ts) = (result.map some, rest) := by
  have htable : (standard file stop).table t.kind = some .letStatement := by
    rw [hlet]
    rfl
  simp only [parseStatement, head, List.headD_cons, htable, parseRule, h]

theorem parseLet_of_name_ne (hname : (ts.headD stop).kind ≠ .ident) :
    (standard file stop).parseLet (t :: ts) =
      (.error (.unexpected file .ident (ts.headD stop)), t :: ts) := by
  rw [parseLet]
  exact if_pos hname

theorem parseLet_of_sign_ne {name : LocatedToken} (hname : name.kind = .ident)
    (hsign : (ts.headD stop).kind ≠ .assign) :
    (standard file stop).parseLet (t :: name :: ts) =
      (.error (.unexpected file .assign (ts.headD stop)), name :: ts) := by
  have hkind : ¬ name.kind ≠ .ident := not_not_intro hname
  rw [parseLet]
  exact (if_neg hkind).trans (if_pos hsign)

theorem parseLet_of_letHead {name sign : LocatedToken} (hname : name.kind = .ident)
    (hsign : sign.kind = .assign) :
    (standard file stop).parseLet (t :: name :: sign :: ts) =
      (.ok (.letStatement t.token (.ofToken name.token) none),
        ts.dropWhile (·.kind ≠ .semicolon)) := by
  simp only [parseLet, standard, head, List.tail_cons, List.headD_cons]
  simp [hname, hsign]

/-! ### Whole programs -/

/-- Recovery goes on where the rest of the segment gives what is left of it to give. -/
theorem gatherInside_segments_eq_resume (file : String) (stop : LocatedToken)
    (ts : List LocatedToken) :
    gatherInside file (segments stop ts) =
      gather file (segments stop ((standard file stop).resume ts)) := by
  induction ts with
  | nil => rfl
  | cons t ts ih =>
    by_cases hlet : t.kind = .letWord
    · have hstart : ((standard file stop).table t.kind).isSome :=
        (StatementTable.isSome_standard_iff t.kind).2 hlet
      rw [resume, if_pos hstart]
      exact (gather_segments_cons_of_let hlet).symm
    · have hstart : ¬ ((standard file stop).table t.kind).isSome :=
        hlet ∘ (StatementTable.isSome_standard_iff t.kind).1
      rw [resume, if_neg hstart]
      by_cases hsemi : t.kind = .semicolon
      · rw [if_pos hsemi]
        exact gatherInside_segments_cons_of_semicolon hsemi
      · rw [if_neg hsemi, ← ih]
        exact gatherInside_segments_cons_of_kind_ne hsemi hlet

/-- Up to some length, lists of tokens give what their segments give. -/
def GathersBelow (file : String) (stop : LocatedToken) (n : Nat) : Prop :=
  ∀ ts : List LocatedToken, ts.length < n →
    (standard file stop).parseAll ts = gather file (segments stop ts)

theorem GathersBelow.resume {n : Nat} (h : GathersBelow file stop n) (hlen : ts.length < n) :
    (standard file stop).parseAll ((standard file stop).resume ts) =
      gatherInside file (segments stop ts) := by
  rw [gatherInside_segments_eq_resume]
  exact h _ (Nat.lt_of_le_of_lt (length_resume_le _ ts) hlen)

/-- A segment that begins with `let` gives what it gives from its middle. -/
theorem GathersBelow.cons_of_let (h : GathersBelow file stop (t :: ts).length)
    (hstop : stop.kind = .eof) (hlet : t.kind = .letWord) :
    (standard file stop).parseAll (t :: ts) = gatherInside file (segments stop (t :: ts)) := by
  by_cases hname : (ts.headD stop).kind = .ident
  · cases ts with
    | nil => simp [hstop] at hname
    | cons name ts =>
      rw [List.headD_cons] at hname
      by_cases hsign : (ts.headD stop).kind = .assign
      · cases ts with
        | nil => simp [hstop] at hsign
        | cons sign ts =>
          rw [List.headD_cons] at hsign
          have hlen : (ts.dropWhile fun u => decide (u.kind ≠ .semicolon)).tail.length <
              (t :: name :: sign :: ts).length := by
            have hdrop := (List.dropWhile_sublist (l := ts)
              fun u => decide (u.kind ≠ .semicolon)).length_le
            simp only [List.length_tail, List.length_cons]
            omega
          rw [parseAll_of_ok (parseStatement_of_let hlet (parseLet_of_letHead hname hsign)),
            gatherInside_cons_of_letHead hlet hname hsign, h _ hlen]
          rfl
      · rw [parseAll_of_error (parseStatement_of_let hlet (parseLet_of_sign_ne hname hsign)),
          gatherInside_cons_of_sign_ne hlet hname hsign, List.tail_cons,
          h.resume (by simp only [List.length_cons]; omega)]
  · rw [parseAll_of_error (parseStatement_of_let hlet (parseLet_of_name_ne hname)),
      gatherInside_cons_of_name_ne hlet hname, List.tail_cons, h.resume (Nat.lt_succ_self _)]

/-- A program gives what its segments give. -/
theorem parseAll_eq_gather (file : String) {stop : LocatedToken} (hstop : stop.kind = .eof)
    (ts : List LocatedToken) :
    (standard file stop).parseAll ts = gather file (segments stop ts) := by
  induction hlen : ts.length using Nat.strong_induction_on generalizing ts with
  | _ n ih =>
    have hbelow : GathersBelow file stop ts.length := by
      intro us hus
      exact ih us.length (hlen ▸ hus) us rfl
    cases ts with
    | nil => rw [parseAll]; rfl
    | cons t ts =>
      by_cases hsemi : t.kind = .semicolon
      · rw [parseAll_of_ok (parseStatement_of_semicolon hsemi),
          gather_segments_cons_of_semicolon hsemi]
        exact hbelow ts (Nat.lt_succ_self _)
      · by_cases hlet : t.kind = .letWord
        · rw [gather_segments_cons_of_let hlet]
          exact hbelow.cons_of_let hstop hlet
        · rw [parseAll_of_error (parseStatement_of_ne hsemi hlet),
            gather_segments_cons_of_kind_ne hsemi hlet, List.tail_cons,
            hbelow.resume (Nat.lt_succ_self _)]

end Batch

/-- The segments of the text in front of a cursor. -/
def Cursor.segments (c : Cursor) : List Segment :=
  MonkeyLang.segments c.stop c.words

/-- Parsing a source text gives what its segments give. -/
theorem parse_eq_gather (source : String) (file : Option String) :
    parse source file =
      (⟨(gather (file.getD Cursor.defaultFile) (Cursor.ofSource source file).segments).1⟩,
        (gather (file.getD Cursor.defaultFile)
          (Cursor.ofSource source file).segments).2.toArray) := by
  have hreads := Parser.Reads.ofCursor (Cursor.ofSource source file)
  obtain ⟨hnodes, hend⟩ := hreads.parseStatements
  have hbatch : (Cursor.ofSource source file).batch .standard =
      Batch.standard (file.getD Cursor.defaultFile) (Cursor.ofSource source file).stop := rfl
  rw [hbatch, Batch.parseAll_eq_gather _ rfl] at hnodes hend
  refine Prod.ext (congrArg Program.mk hnodes) (hend.diagnostics_eq.trans ?_)
  simp [Cursor.segments]

/-! ### The statements of a program -/

theorem splitOnP_map_token (ts : List LocatedToken) :
    (ts.map LocatedToken.token).splitOnP (·.kind = .semicolon) =
      (ts.splitOnP (·.kind = .semicolon)).map (List.map LocatedToken.token) := by
  induction ts with
  | nil => rfl
  | cons t ts ih =>
    rw [List.map_cons, List.splitOnP_cons_eq_if_modifyHead, List.splitOnP_cons_eq_if_modifyHead, ih]
    by_cases ht : t.kind = .semicolon
    · rw [if_pos (by simpa using ht), if_pos (by simpa using ht)]
      rfl
    · rw [if_neg (by simpa using ht), if_neg (by simpa using ht)]
      cases ts.splitOnP (·.kind = .semicolon) <;> rfl

/-- The statements depend on the tokens, not on where they stand. -/
theorem filterMap_node?_segments (stop : LocatedToken) (ts : List LocatedToken) :
    (segments stop ts).filterMap Segment.node? =
      ((ts.map LocatedToken.token).splitOnP (·.kind = .semicolon)).filterMap firstLet? := by
  rw [splitOnP_map_token, ← map_tokens_segments stop, List.map_map, List.filterMap_map]
  rfl

/-- A program has one statement for each of its segments that holds a `let` head: that of the
first one. Nothing in front of the head and nothing in another segment matters. -/
theorem statements_parse (source : String) (file : Option String) :
    ∃ ts, tokenize source file = ts ++ [.endOfText] ∧
      (parse source file).1.statements =
        (ts.splitOnP (·.kind = .semicolon)).filterMap firstLet? := by
  refine ⟨(Cursor.ofSource source file).words.map LocatedToken.token, ?_, ?_⟩
  · rw [tokenize, Cursor.tokens_eq, List.map_append]
    rfl
  · rw [parse_eq_gather]
    exact filterMap_node?_segments _ _

/-- Neither what stands in front of a `let` nor the `let` that is no head hides the head. -/
example : (parse "x let let y = 5; 6" none).1.statements =
    [.letStatement ⟨.letWord, "let"⟩ (.ofToken ⟨.ident, "y"⟩) none] := by
  decide +kernel

/-! ### The diagnostics on a program -/

theorem close_of_mem_segments {stop : LocatedToken} {ts : List LocatedToken} {s : Segment}
    (hs : s ∈ segments stop ts) : s.close.kind = .semicolon ∨ s.close = stop := by
  induction ts generalizing s with
  | nil =>
    rw [segments, List.mem_singleton] at hs
    exact .inr (congrArg Segment.close hs)
  | cons t ts ih =>
    obtain ⟨u, us, vs, hu, -⟩ := exists_segments_eq_cons stop ts
    by_cases ht : t.kind = .semicolon
    · rw [segments, if_pos ht] at hs
      rcases List.mem_cons.1 hs with rfl | hs
      · exact .inl ht
      · exact ih hs
    · rw [segments_cons_of_kind_ne ht hu] at hs
      rw [hu] at ih
      rcases List.mem_cons.1 hs with rfl | hs
      · exact @ih u List.mem_cons_self
      · exact ih (List.mem_cons_of_mem u hs)

theorem beginsWithLet_concat {close : LocatedToken} (hsign : close.kind ≠ .assign)
    (ts : List LocatedToken) : beginsWithLet (ts ++ [close]) = beginsWithLet ts := by
  match ts with
  | [] | [_] => rfl
  | [t, name] =>
    rw [Bool.eq_iff_iff]
    constructor
    · intro h
      exact absurd ((beginsWithLet_iff t name close []).1 h).2.2 hsign
    · exact Bool.noConfusion
  | _ :: _ :: _ :: _ => rfl

/-- What is behind a `let` is a name or not, and then behind the name is `=` or not. -/
theorem isSome_letFault?_concat {t close : LocatedToken} (hlet : t.kind = .letWord)
    (hname : close.kind ≠ .ident) (file : String) (ts : List LocatedToken) :
    (letFault? file (t :: (ts ++ [close]))).isSome := by
  cases ts with
  | nil =>
    rw [List.nil_append, letFault?, if_neg (not_not_intro hlet), if_pos hname]
    rfl
  | cons name ts =>
    rw [List.cons_append, letFault?, if_neg (not_not_intro hlet)]
    split
    · rfl
    · cases ts <;> rfl

/-- There is nothing to say on a segment only if it is empty or begins with a `let` head. -/
theorem faults_eq_nil_iff {s : Segment} (hname : s.close.kind ≠ .ident)
    (hsign : s.close.kind ≠ .assign) (file : String) :
    s.faults file = [] ↔ s.tokens = [] ∨ beginsWithLet s.tokens := by
  obtain ⟨tokens, close⟩ := s
  cases tokens with
  | nil => exact iff_of_true rfl (.inl rfl)
  | cons t ts =>
    rw [Segment.faults, startFaults, List.append_eq_nil_iff, List.cons_append]
    by_cases hlet : t.kind = .letWord
    · have hconcat : beginsWithLet (t :: (ts ++ [close])) = beginsWithLet (t :: ts) :=
        beginsWithLet_concat hsign (t :: ts)
      by_cases hhead : beginsWithLet (t :: ts)
      · have hfaults : letFaults file (t :: (ts ++ [close])) = [] :=
          letFaults_cons_of_beginsWithLet (hconcat.trans hhead) file
        apply iff_of_true
        · exact ⟨if_neg (not_not_intro hlet), hfaults⟩
        · exact .inr hhead
      · obtain ⟨d, hd⟩ := Option.isSome_iff_exists.1 (isSome_letFault?_concat hlet hname file ts)
        rw [letFaults_cons_of_not_beginsWithLet (by rwa [hconcat]), hd]
        apply iff_of_false
        · simp
        · simp [hhead]
    · have hhead : ¬ beginsWithLet (t :: ts) := by
        simp [beginsWithLet, letHead?_cons_of_kind_ne hlet]
      apply iff_of_false
      · simp [hlet]
      · simp [hhead]

theorem exists_token_of_letFault? {file : String} {ts : List LocatedToken} {d : Diagnostic}
    (h : letFault? file ts = some d) : ∃ t ∈ ts, ∃ kind, d = .unexpected file kind t := by
  match ts with
  | [] | [_] => cases h
  | t :: name :: ts =>
    rw [letFault?] at h
    split at h
    · cases h
    · split at h
      · exact ⟨name, by simp, .ident, (Option.some.inj h).symm⟩
      · obtain ⟨sign, hsign, hd⟩ := Option.map_eq_some_iff.1 h
        exact ⟨sign, by simp [List.mem_of_head? hsign], .assign, hd.symm⟩

/-- A diagnostic on a segment names one of its tokens or the token that closes it. -/
theorem exists_token_of_mem_faults {file : String} {s : Segment} {d : Diagnostic}
    (hd : d ∈ s.faults file) :
    ∃ t ∈ s.tokens ++ [s.close], d = .unrecognised file t ∨ ∃ kind, d = .unexpected file kind t := by
  rcases List.mem_append.1 hd with hstart | hlet
  · obtain ⟨tokens, close⟩ := s
    cases tokens with
    | nil => cases hstart
    | cons t ts =>
      rw [startFaults] at hstart
      split at hstart
      · exact ⟨t, by simp, .inl (List.mem_singleton.1 hstart)⟩
      · cases hstart
  · obtain ⟨us, hus, hfault⟩ := List.mem_filterMap.1 hlet
    obtain ⟨t, ht, hd⟩ := exists_token_of_letFault? hfault
    have hsuffix : us <:+ s.tokens ++ [s.close] := by
      rw [← List.mem_tails]
      exact (List.takeWhile_sublist _).subset hus
    exact ⟨t, hsuffix.subset ht, .inr hd⟩

/-- The diagnostics on a program are those on its segments: one on a segment that does not begin
with `let`, and one on each `let` in front of the first `let` head of a segment. There are no
others, so there are none just if every segment is empty or begins with a `let` head. -/
theorem diagnostics_parse (source : String) (file : Option String) :
    ∃ ts stop, (Cursor.ofSource source file).tokens = ts ++ [stop] ∧ stop.token = .endOfText ∧
      (segments stop ts).map Segment.tokens = ts.splitOnP (·.kind = .semicolon) ∧
      (parse source file).2.toList =
        (segments stop ts).flatMap (Segment.faults (file.getD Cursor.defaultFile)) ∧
      (∀ d ∈ (parse source file).2, ∀ t, d.fault ≠ .invalidNumber t) ∧
      ((parse source file).2 = #[] ↔
        ∀ s ∈ segments stop ts, s.tokens = [] ∨ beginsWithLet s.tokens) := by
  let c := Cursor.ofSource source file
  have hparse : (parse source file).2.toList =
      (segments c.stop c.words).flatMap (Segment.faults c.file) := by
    rw [parse_eq_gather]
    rfl
  refine ⟨c.words, c.stop, c.tokens_eq, rfl, map_tokens_segments c.stop c.words, hparse, ?_, ?_⟩
  · intro d hd u
    rw [← Array.mem_toList_iff, hparse] at hd
    obtain ⟨s, -, hs⟩ := List.mem_flatMap.1 hd
    obtain ⟨t, -, hfault⟩ := exists_token_of_mem_faults hs
    rcases hfault with rfl | ⟨kind, rfl⟩
    · exact Fault.noConfusion
    · exact Fault.noConfusion
  · rw [← Array.toList_eq_nil_iff, hparse, List.flatMap_eq_nil_iff]
    apply forall₂_congr
    intro s hs
    have hclose : s.close.kind = .semicolon ∨ s.close.kind = .eof :=
      (close_of_mem_segments hs).imp_right (congrArg LocatedToken.kind)
    apply faults_eq_nil_iff
    · rcases hclose with h | h <;> simp [h]
    · rcases hclose with h | h <;> simp [h]

end MonkeyLang
