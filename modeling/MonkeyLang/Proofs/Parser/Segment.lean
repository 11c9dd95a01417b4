import Mathlib.Data.List.Infix
import MonkeyLang.Proofs.Parser.Operation

/-!
# The segments of a program

Semicolons cut the tokens of a program into segments. A segment gives at most one statement, that
of its first `let` head: the word `let`, a name and `=` in a row. It gives a diagnostic if
its first token is no `let`, and one for each `let` in front of that head. So what one segment
gives does not depend on the others (`Batch.parseAll_eq_gather`).
-/

namespace MonkeyLang

/-- The tokens between two semicolons, and the token that closes them: a semicolon, or at the end
of the program the end of the text. -/
structure Segment where
  tokens : List LocatedToken
  close : LocatedToken

/-- The statement of the `let` head at the front of a list of tokens. -/
def letHead? : List Token → Option Node
  | t :: name :: sign :: _ =>
    if t.kind = .letWord ∧ name.kind = .ident ∧ sign.kind = .assign then
      some (.letStatement t (.ofToken name) none)
    else
      none
  | _ => none

/-- The statement of the first `let` head among tokens. -/
def firstLet? (ts : List Token) : Option Node :=
  ts.tails.findSome? letHead?

/-- Whether a list of tokens begins with a `let` head. -/
def beginsWithLet (ts : List LocatedToken) : Bool :=
  (letHead? (ts.map LocatedToken.token)).isSome

/-- The diagnostic on a `let` at the front of a list of tokens that is no `let` head: the token
behind it is no name, or else the token behind the name is not `=`. -/
def letFault? (file : String) : List LocatedToken → Option Diagnostic
  | t :: name :: ts =>
    if t.kind ≠ .letWord then none
    else if name.kind ≠ .ident then some (.unexpected file .ident name)
    else ts.head?.map (.unexpected file .assign)
  | _ => none

/-- The diagnostics on the places where `let` stands in front of the first `let` head. -/
def letFaults (file : String) (ts : List LocatedToken) : List Diagnostic :=
  (ts.tails.takeWhile (!beginsWithLet ·)).filterMap (letFault? file)

/-- The diagnostic on a list of tokens that does not begin with `let`. -/
def startFaults (file : String) : List LocatedToken → List Diagnostic
  | [] => []
  | t :: _ => if t.kind ≠ .letWord then [.unrecognised file t] else []

namespace Segment

def node? (s : Segment) : Option Node :=
  firstLet? (s.tokens.map LocatedToken.token)

/-- The diagnostics on a segment. The token at fault may be the one that closes it. -/
def faults (file : String) (s : Segment) : List Diagnostic :=
  startFaults file s.tokens ++ letFaults file (s.tokens ++ [s.close])

/-- Puts a token in front of a segment. -/
def cons (t : LocatedToken) (s : Segment) : Segment :=
  { s with tokens := t :: s.tokens }

end Segment

/-- The segments of a list of tokens, of which the last is closed by `stop`. -/
def segments (stop : LocatedToken) : List LocatedToken → List Segment
  | [] => [⟨[], stop⟩]
  | t :: ts =>
    if t.kind = .semicolon then ⟨[], t⟩ :: segments stop ts
    else (segments stop ts).modifyHead (.cons t)

/-- The segments are the pieces between the semicolons. -/
theorem map_tokens_segments (stop : LocatedToken) (ts : List LocatedToken) :
    (segments stop ts).map Segment.tokens = ts.splitOnP (·.kind = .semicolon) := by
  induction ts with
  | nil => rfl
  | cons t ts ih =>
    rw [segments, List.splitOnP_cons_eq_if_modifyHead]
    by_cases ht : t.kind = .semicolon
    · rw [if_pos ht, if_pos (by simpa using ht), List.map_cons, ih]
    · rw [if_neg ht, if_neg (by simpa using ht), ← ih]
      cases segments stop ts <;> rfl

/-- The first segment, with the token that closes it, begins as the tokens do. -/
theorem exists_segments_eq_cons (stop : LocatedToken) (ts : List LocatedToken) :
    ∃ s ss us, segments stop ts = s :: ss ∧ s.tokens ++ [s.close] = ts.headD stop :: us := by
  induction ts with
  | nil => exact ⟨⟨[], stop⟩, [], [], rfl, rfl⟩
  | cons t ts ih =>
    obtain ⟨s, ss, us, hsegments, -⟩ := ih
    rw [segments, hsegments]
    by_cases ht : t.kind = .semicolon
    · rw [if_pos ht]
      exact ⟨⟨[], t⟩, s :: ss, [], rfl, rfl⟩
    · rw [if_neg ht]
      exact ⟨s.cons t, ss, s.tokens ++ [s.close], rfl, rfl⟩

theorem segments_cons_of_kind_ne {stop t : LocatedToken} (ht : t.kind ≠ .semicolon)
    {ts : List LocatedToken} {s : Segment} {ss : List Segment} (h : segments stop ts = s :: ss) :
    segments stop (t :: ts) = s.cons t :: ss := by
  rw [segments, if_neg ht, h]
  rfl

/-- All tokens are in the segments, in their order. -/
theorem flatMap_segments (stop : LocatedToken) (ts : List LocatedToken) :
    (segments stop ts).flatMap (fun s => s.tokens ++ [s.close]) = ts ++ [stop] := by
  induction ts with
  | nil => rfl
  | cons t ts ih =>
    rw [List.cons_append, ← ih, segments]
    by_cases ht : t.kind = .semicolon
    · rw [if_pos ht]
      rfl
    · rw [if_neg ht]
      obtain ⟨s, ss, us, hs, -⟩ := exists_segments_eq_cons stop ts
      rw [hs]
      rfl

/-- A semicolon closes the segments in front of it. -/
theorem segments_append {semi : LocatedToken} (hsemi : semi.kind = .semicolon)
    (stop : LocatedToken) (ts us : List LocatedToken) :
    segments stop (ts ++ semi :: us) = segments semi ts ++ segments stop us := by
  induction ts with
  | nil => exact if_pos hsemi
  | cons t ts ih =>
    rw [List.cons_append, segments, segments, ih]
    by_cases ht : t.kind = .semicolon
    · rw [if_pos ht, if_pos ht]
      rfl
    · rw [if_neg ht, if_neg ht]
      obtain ⟨s, ss, vs, hs, -⟩ := exists_segments_eq_cons semi ts
      rw [hs]
      rfl

/-! ### One token in front -/

theorem letHead?_cons_of_kind_ne {t : Token} (ht : t.kind ≠ .letWord) (ts : List Token) :
    letHead? (t :: ts) = none := by
  unfold letHead?
  split
  · rename_i heq
    obtain ⟨rfl, rfl⟩ := List.cons.inj heq
    apply if_neg
    intro h
    exact ht h.1
  · rfl

/-- Tokens behind a `let` head do not matter to it. -/
theorem letHead?_append {ts : List Token} {n : Node} (h : letHead? ts = some n)
    (us : List Token) : letHead? (ts ++ us) = some n := by
  match ts with
  | [] | [_] | [_, _] => cases h
  | _ :: _ :: _ :: _ => exact h

theorem beginsWithLet_iff (t name sign : LocatedToken) (ts : List LocatedToken) :
    beginsWithLet (t :: name :: sign :: ts) ↔
      t.kind = .letWord ∧ name.kind = .ident ∧ sign.kind = .assign := by
  simp [beginsWithLet, letHead?]

theorem firstLet?_cons (t : Token) (ts : List Token) :
    firstLet? (t :: ts) = (letHead? (t :: ts)).or (firstLet? ts) := by
  rw [firstLet?, List.tails, List.findSome?_cons]
  cases letHead? (t :: ts) <;> rfl

theorem letFaults_cons_of_beginsWithLet {t : LocatedToken} {ts : List LocatedToken}
    (h : beginsWithLet (t :: ts)) (file : String) : letFaults file (t :: ts) = [] := by
  rw [letFaults, List.tails, List.takeWhile_cons_of_neg (by simp [h])]
  rfl

theorem letFaults_cons_of_not_beginsWithLet {t : LocatedToken} {ts : List LocatedToken}
    (h : ¬ beginsWithLet (t :: ts)) (file : String) :
    letFaults file (t :: ts) = (letFault? file (t :: ts)).toList ++ letFaults file ts := by
  rw [letFaults, List.tails, List.takeWhile_cons_of_pos (by simpa using h), List.filterMap_cons]
  cases letFault? file (t :: ts) <;> rfl

theorem letFaults_cons_of_kind_ne {t : LocatedToken} (ht : t.kind ≠ .letWord)
    (ts : List LocatedToken) (file : String) : letFaults file (t :: ts) = letFaults file ts := by
  have hhead : ¬ beginsWithLet (t :: ts) := by
    simp [beginsWithLet, letHead?_cons_of_kind_ne ht]
  have hfault : letFault? file (t :: ts) = none := by
    cases ts with
    | nil => rfl
    | cons u us => exact if_pos ht
  rw [letFaults_cons_of_not_beginsWithLet hhead, hfault]
  rfl

/-! ### What segments give -/

/-- The statements and the diagnostics of segments. -/
def gather (file : String) (ss : List Segment) : List Node × List Diagnostic :=
  (ss.filterMap Segment.node?, ss.flatMap (Segment.faults file))

/-- What segments give when the first of them is entered in its middle, where no statement has to
start. -/
def gatherInside (file : String) : List Segment → List Node × List Diagnostic
  | [] => ([], [])
  | s :: ss =>
    (s.node?.toList ++ (gather file ss).1,
      letFaults file (s.tokens ++ [s.close]) ++ (gather file ss).2)

theorem gather_cons (file : String) (s : Segment) (ss : List Segment) :
    gather file (s :: ss) =
      (s.node?.toList ++ (gather file ss).1, s.faults file ++ (gather file ss).2) := by
  rw [gather, List.filterMap_cons, List.flatMap_cons]
  cases s.node? <;> rfl

theorem node?_cons_of_kind_ne {t : LocatedToken} (ht : t.kind ≠ .letWord) (s : Segment) :
    (s.cons t).node? = s.node? := by
  show firstLet? (t.token :: s.tokens.map LocatedToken.token) = s.node?
  rw [firstLet?_cons, letHead?_cons_of_kind_ne ht]
  rfl

variable {file : String} {stop t : LocatedToken} {ts : List LocatedToken}

/-- A segment without tokens gives nothing. -/
theorem gather_cons_nil (file : String) (close : LocatedToken) (ss : List Segment) :
    gather file (⟨[], close⟩ :: ss) = gather file ss := by
  rw [gather_cons]
  rfl

theorem gather_segments_cons_of_semicolon (ht : t.kind = .semicolon) :
    gather file (segments stop (t :: ts)) = gather file (segments stop ts) := by
  rw [segments, if_pos ht, gather_cons_nil]

theorem gatherInside_segments_cons_of_semicolon (ht : t.kind = .semicolon) :
    gatherInside file (segments stop (t :: ts)) = gather file (segments stop ts) := by
  rw [segments, if_pos ht]
  rfl

theorem gatherInside_segments_cons_of_kind_ne (hsemi : t.kind ≠ .semicolon)
    (hlet : t.kind ≠ .letWord) :
    gatherInside file (segments stop (t :: ts)) = gatherInside file (segments stop ts) := by
  obtain ⟨s, ss, us, hs, -⟩ := exists_segments_eq_cons stop ts
  rw [segments_cons_of_kind_ne hsemi hs, hs, gatherInside, gatherInside,
    node?_cons_of_kind_ne hlet, Segment.cons, List.cons_append, letFaults_cons_of_kind_ne hlet]

theorem gather_segments_cons_of_let (hlet : t.kind = .letWord) :
    gather file (segments stop (t :: ts)) = gatherInside file (segments stop (t :: ts)) := by
  have hsemi : t.kind ≠ .semicolon := by simp [hlet]
  obtain ⟨s, ss, us, hs, -⟩ := exists_segments_eq_cons stop ts
  rw [segments_cons_of_kind_ne hsemi hs, gather_cons, gatherInside, Segment.faults,
    Segment.cons, startFaults, if_neg (not_not_intro hlet), List.nil_append]

/-- A token that starts no statement gives a diagnostic at the start of a segment. -/
theorem gather_segments_cons_of_kind_ne (hsemi : t.kind ≠ .semicolon)
    (hlet : t.kind ≠ .letWord) :
    gather file (segments stop (t :: ts)) =
      ((gatherInside file (segments stop ts)).1,
        .unrecognised file t :: (gatherInside file (segments stop ts)).2) := by
  obtain ⟨s, ss, us, hs, -⟩ := exists_segments_eq_cons stop ts
  rw [← gatherInside_segments_cons_of_kind_ne hsemi hlet, segments_cons_of_kind_ne hsemi hs,
    gather_cons, gatherInside, Segment.faults, Segment.cons, startFaults, if_pos hlet]
  rfl

/-- Behind the first semicolon the segments give what they give by themselves. -/
theorem gather_segments_dropWhile (file : String) (stop : LocatedToken) (ts : List LocatedToken) :
    ∃ s ss, segments stop ts = s :: ss ∧
      gather file ss = gather file (segments stop (ts.dropWhile (·.kind ≠ .semicolon)).tail) := by
  induction ts with
  | nil => exact ⟨⟨[], stop⟩, [], rfl, rfl⟩
  | cons t ts ih =>
    by_cases ht : t.kind = .semicolon
    · rw [List.dropWhile_cons_of_neg (by simpa using ht), segments, if_pos ht]
      exact ⟨⟨[], t⟩, segments stop ts, rfl, rfl⟩
    · obtain ⟨s, ss, hs, hgather⟩ := ih
      rw [List.dropWhile_cons_of_pos (by simpa using ht), segments_cons_of_kind_ne ht hs]
      exact ⟨s.cons t, ss, rfl, hgather⟩

/-- A `let` that is no head gives a diagnostic, and what comes behind it is not affected. -/
theorem gatherInside_cons_of_letFault {s : Segment} {ss : List Segment} {d : Diagnostic}
    (hlet : t.kind = .letWord) (hs : segments stop ts = s :: ss)
    (hhead : ¬ beginsWithLet (t :: (s.tokens ++ [s.close])))
    (hfault : letFault? file (t :: (s.tokens ++ [s.close])) = some d) :
    gatherInside file (segments stop (t :: ts)) =
      ((gatherInside file (segments stop ts)).1,
        d :: (gatherInside file (segments stop ts)).2) := by
  have hsemi : t.kind ≠ .semicolon := by simp [hlet]
  have hnode : (s.cons t).node? = s.node? := by
    show firstLet? (t.token :: s.tokens.map LocatedToken.token) = s.node?
    rw [firstLet?_cons]
    cases hn : letHead? (t.token :: s.tokens.map LocatedToken.token) with
    | none => rfl
    | some n =>
      have hbegins : beginsWithLet (t :: (s.tokens ++ [s.close])) := by
        rw [beginsWithLet, List.map_cons, List.map_append, ← List.cons_append,
          letHead?_append hn]
        rfl
      exact absurd hbegins hhead
  rw [segments_cons_of_kind_ne hsemi hs, hs, gatherInside, gatherInside, hnode, Segment.cons,
    List.cons_append, letFaults_cons_of_not_beginsWithLet hhead, hfault]
  rfl

theorem gatherInside_cons_of_name_ne (hlet : t.kind = .letWord)
    (hname : (ts.headD stop).kind ≠ .ident) :
    gatherInside file (segments stop (t :: ts)) =
      ((gatherInside file (segments stop ts)).1,
        .unexpected file .ident (ts.headD stop) :: (gatherInside file (segments stop ts)).2) := by
  obtain ⟨s, ss, us, hs, hus⟩ := exists_segments_eq_cons stop ts
  apply gatherInside_cons_of_letFault hlet hs
  · rw [hus]
    cases us with
    | nil => exact Bool.noConfusion
    | cons u us =>
      intro h
      exact hname ((beginsWithLet_iff _ _ _ _).1 h).2.1
  · rw [hus, letFault?, if_neg (not_not_intro hlet), if_pos hname]

theorem gatherInside_cons_of_sign_ne {name : LocatedToken} (hlet : t.kind = .letWord)
    (hname : name.kind = .ident) (hsign : (ts.headD stop).kind ≠ .assign) :
    gatherInside file (segments stop (t :: name :: ts)) =
      ((gatherInside file (segments stop ts)).1,
        .unexpected file .assign (ts.headD stop) :: (gatherInside file (segments stop ts)).2) := by
  have hsemi : name.kind ≠ .semicolon := by simp [hname]
  have hword : name.kind ≠ .letWord := by simp [hname]
  obtain ⟨s, ss, us, hs, hus⟩ := exists_segments_eq_cons stop ts
  have hskip : gatherInside file (segments stop (name :: ts)) =
      gatherInside file (segments stop ts) := gatherInside_segments_cons_of_kind_ne hsemi hword
  rw [← hskip]
  apply gatherInside_cons_of_letFault hlet (segments_cons_of_kind_ne hsemi hs)
  · rw [Segment.cons, List.cons_append, hus]
    intro h
    exact hsign ((beginsWithLet_iff _ _ _ _).1 h).2.2
  · rw [Segment.cons, List.cons_append, hus, letFault?, if_neg (not_not_intro hlet),
      if_neg (not_not_intro hname)]
    rfl

/-- A `let` head gives its statement, and what follows it up to the semicolon gives nothing. -/
theorem gatherInside_cons_of_letHead {name sign : LocatedToken} (hlet : t.kind = .letWord)
    (hname : name.kind = .ident) (hsign : sign.kind = .assign) :
    gatherInside file (segments stop (t :: name :: sign :: ts)) =
      (.letStatement t.token (.ofToken name.token) none ::
          (gather file (segments stop (ts.dropWhile (·.kind ≠ .semicolon)).tail)).1,
        (gather file (segments stop (ts.dropWhile (·.kind ≠ .semicolon)).tail)).2) := by
  obtain ⟨s, ss, hs, hgather⟩ := gather_segments_dropWhile file stop ts
  have hsegments : segments stop (t :: name :: sign :: ts) =
      ((s.cons sign).cons name).cons t :: ss := by
    apply segments_cons_of_kind_ne (by simp [hlet])
    apply segments_cons_of_kind_ne (by simp [hname])
    exact segments_cons_of_kind_ne (by simp [hsign]) hs
  have hhead (us : List Token) : letHead? (t.token :: name.token :: sign.token :: us) =
      some (.letStatement t.token (.ofToken name.token) none) := if_pos ⟨hlet, hname, hsign⟩
  have hnode : (((s.cons sign).cons name).cons t).node? =
      some (.letStatement t.token (.ofToken name.token) none) := by
    show firstLet? (t.token :: name.token :: sign.token :: s.tokens.map LocatedToken.token) = _
    rw [firstLet?_cons, hhead]
    rfl
  have hfaults : letFaults file ((((s.cons sign).cons name).cons t).tokens ++ [s.close]) = [] :=
    letFaults_cons_of_beginsWithLet ((beginsWithLet_iff _ _ _ _).2 ⟨hlet, hname, hsign⟩) file
  rw [hsegments, gatherInside, hnode, ← hgather]
  exact Prod.ext rfl (congrArg (· ++ (gather file ss).2) hfaults)

end MonkeyLang
