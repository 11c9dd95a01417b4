import Mathlib.Data.List.Infix
import MonkeyLang.Proofs.Parser.Batch

/-!
# The tokens that diagnostics blame

Every diagnostic blames one token of the text (`exists_blames_of_mem_parseAll`). A token that starts
no statement is blamed where a statement can start, and a token in the place of another one behind
the beginning of a statement. Behind a fault parsing goes on where a statement can start again
(`Resumes`), so what is blamed there is blamed in the text as a whole.
-/

namespace MonkeyLang

namespace Batch

variable (b : Batch)

/-- A token behind which a statement can start or miss another token. -/
def Opens (v : LocatedToken) : Prop :=
  (b.table v.kind).isSome ∨ v.kind = .ident ∨ v.kind = .semicolon

/-- A diagnostic on the tokens `l`, and the token that it blames. -/
inductive Blames (l : List LocatedToken) : Diagnostic → LocatedToken → Prop
  | unexpected {front rest : List LocatedToken} {v u : LocatedToken} (kind : TokenKind)
      (hl : l = front ++ v :: u :: rest) (hv : b.Opens v) :
      Blames l (.unexpected b.file kind u) u
  | unrecognised {front rest : List LocatedToken} {u : LocatedToken}
      (hl : l = front ++ u :: rest) (hu : b.table u.kind = none)
      (hfront : ∀ v ∈ front.getLast?, b.Opens v) :
      Blames l (.unrecognised b.file u) u
  | invalidNumber {u : LocatedToken} (hl : u ∈ l) (hu : b.table u.kind = some .integer) :
      Blames l ⟨.invalidNumber u.token, u.position b.file⟩ u

/-- How the first statement of a list fails: the diagnostic, and the tokens among which parsing
resumes. -/
inductive Fails (ts : List LocatedToken) : Diagnostic → List LocatedToken → Prop
  | unrecognised {t : LocatedToken} {rest : List LocatedToken} (hts : ts = t :: rest)
      (ht : b.table t.kind = none) : Fails ts (.unrecognised b.file t) rest
  | invalidNumber {t : LocatedToken} {rest : List LocatedToken} (hts : ts = t :: rest)
      (ht : b.table t.kind = some .integer) :
      Fails ts ⟨.invalidNumber t.token, t.position b.file⟩ rest
  | unexpected {front rest : List LocatedToken} {v : LocatedToken} (kind : TokenKind)
      (hts : ts = front ++ v :: rest) (hv : b.Opens v) :
      Fails ts (.unexpected b.file kind (b.head rest)) rest

/-- Parsing goes on with `rest`: it begins with a token that starts a statement, or one can start
behind the tokens in front of it. -/
def Resumes (ts rest : List LocatedToken) : Prop :=
  ∃ skipped, ts = skipped ++ rest ∧
    ∀ u ∈ rest.head?, (b.table u.kind).isSome ∨ ∃ v ∈ skipped.getLast?, b.Opens v

variable {b} {t u : LocatedToken} {ts rest : List LocatedToken} {d : Diagnostic}

/-! ### One statement -/

theorem parseLet_cons (t : LocatedToken) (ts : List LocatedToken) :
    b.parseLet (t :: ts) =
      if (b.head ts).kind ≠ .ident then (.error (.unexpected b.file .ident (b.head ts)), t :: ts)
      else if (b.head ts.tail).kind ≠ .assign then
        (.error (.unexpected b.file .assign (b.head ts.tail)), ts)
      else
        (.ok (.letStatement t.token (.ofToken (b.head ts).token) none),
          ts.tail.dropWhile (·.kind ≠ .semicolon)) := rfl

theorem fails_of_parseLet (ht : b.table t.kind = some .letStatement)
    (h : b.parseLet (t :: ts) = (.error d, rest)) : b.Fails (t :: ts) d rest.tail := by
  have hopens : b.Opens t := .inl (by rw [ht]; rfl)
  have hts : t :: ts = [] ++ t :: ts := rfl
  rw [parseLet_cons] at h
  split at h
  · cases h
    exact .unexpected .ident hts hopens
  · rename_i hname
    split at h
    · cases h
      cases ts with
      | nil => exact .unexpected .assign hts hopens
      | cons name ts =>
        have hts : t :: name :: ts = [t] ++ name :: ts := rfl
        have hident : name.kind = .ident := not_not.1 hname
        exact .unexpected .assign hts (.inr (.inl hident))
    · cases h

/-- A statement fails at its first token, or where another token has to stand in it. -/
theorem fails_of_parseStatement (h : b.parseStatement (t :: ts) = (.error d, rest)) :
    b.Fails (t :: ts) d rest.tail := by
  have hhead : b.head (t :: ts) = t := rfl
  rw [parseStatement, hhead] at h
  cases htable : b.table t.kind with
  | none =>
    simp only [htable] at h
    split at h
    · cases h
    · cases h
      exact .unrecognised rfl htable
  | some rule =>
    simp only [htable] at h
    obtain ⟨hresult, rfl⟩ := Prod.mk.inj h
    cases rule with
    | letStatement =>
      cases hlet : b.parseLet (t :: ts) with
      | mk result rest =>
        rw [parseRule, hlet] at hresult ⊢
        cases result with
        | ok node => cases hresult
        | error d' =>
          cases hresult
          exact fails_of_parseLet htable hlet
    | identifier => cases hresult
    | integer =>
      rw [parseRule, IntegerLiteral.ofToken] at hresult
      split at hresult
      · cases hresult
      · cases hresult
        exact .invalidNumber rfl htable

theorem kind_of_parseLet {node : Node} (h : b.parseLet (t :: ts) = (.ok node, u :: rest)) :
    u.kind = .semicolon := by
  rw [parseLet_cons] at h
  split at h
  · cases h
  · split at h
    · cases h
    · have hdrop := (Prod.mk.inj h).2
      have hnot := List.head?_dropWhile_not (fun w => decide (w.kind ≠ .semicolon)) ts.tail
      rw [hdrop] at hnot
      simpa using hnot

/-- Behind the last token of a statement another one can start. -/
theorem opens_of_parseStatement {node? : Option Node}
    (h : b.parseStatement (t :: ts) = (.ok node?, u :: rest)) : b.Opens u := by
  have hhead : b.head (t :: ts) = t := rfl
  rw [parseStatement, hhead] at h
  cases htable : b.table t.kind with
  | none =>
    simp only [htable] at h
    split at h
    · cases h
      exact .inr (.inr ‹_›)
    · cases h
  | some rule =>
    have hopens : b.Opens t := .inl (by rw [htable]; rfl)
    simp only [htable] at h
    obtain ⟨hresult, hrest⟩ := Prod.mk.inj h
    cases rule with
    | letStatement =>
      cases hlet : b.parseLet (t :: ts) with
      | mk result left =>
        rw [parseRule, hlet] at hresult hrest
        cases result with
        | ok node =>
          obtain rfl : left = u :: rest := hrest
          exact .inr (.inr (kind_of_parseLet hlet))
        | error d => cases hresult
    | identifier =>
      cases hrest
      exact hopens
    | integer =>
      cases hrest
      exact hopens

/-! ### Where parsing resumes -/

theorem resumes_resume (b : Batch) (ts : List LocatedToken) : b.Resumes ts (b.resume ts) := by
  induction ts with
  | nil => exact ⟨[], rfl, nofun⟩
  | cons t ts ih =>
    rw [resume]
    split
    · rename_i ht
      refine ⟨[], rfl, ?_⟩
      intro u hu
      obtain rfl : t = u := Option.some.inj hu
      exact .inl ht
    · split
      · rename_i ht
        exact ⟨[t], rfl, fun u _ => .inr ⟨t, rfl, .inr (.inr ht)⟩⟩
      · obtain ⟨skipped, hts, hskipped⟩ := ih
        refine ⟨t :: skipped, congrArg (List.cons t) hts, ?_⟩
        intro u hu
        refine (hskipped u hu).imp_right ?_
        rintro ⟨v, hv, hopens⟩
        exact ⟨v, List.mem_getLast?_cons hv, hopens⟩

theorem Resumes.of_suffix {us : List LocatedToken} (h : b.Resumes ts rest) (hsuffix : ts <:+ us) :
    b.Resumes us rest := by
  obtain ⟨front, rfl⟩ := hsuffix
  obtain ⟨skipped, rfl, hskipped⟩ := h
  refine ⟨front ++ skipped, (List.append_assoc _ _ _).symm, ?_⟩
  intro u hu
  refine (hskipped u hu).imp_right ?_
  rintro ⟨v, hv, hopens⟩
  exact ⟨v, List.mem_getLast?_append_of_mem_getLast? hv, hopens⟩

theorem resumes_of_ok {node? : Option Node} (h : (b.parseStatement (t :: ts)).1 = .ok node?) :
    b.Resumes (t :: ts) (b.parseStatement (t :: ts)).2.tail := by
  have hsuffix := b.parseStatement_suffix (t :: ts)
  cases hstatement : b.parseStatement (t :: ts) with
  | mk result rest =>
    rw [hstatement] at h hsuffix
    obtain rfl : result = .ok node? := h
    cases rest with
    | nil => exact ⟨t :: ts, (List.append_nil _).symm, nofun⟩
    | cons v rest =>
      have hopens : b.Opens v := opens_of_parseStatement hstatement
      have hresumes : b.Resumes (v :: rest) rest := ⟨[v], rfl, fun u _ => .inr ⟨v, rfl, hopens⟩⟩
      exact hresumes.of_suffix hsuffix

theorem resumes_of_error (b : Batch) (t : LocatedToken) (ts : List LocatedToken) :
    b.Resumes (t :: ts) (b.resume (b.parseStatement (t :: ts)).2.tail) :=
  (b.resumes_resume _).of_suffix ((List.tail_suffix _).trans (b.parseStatement_suffix (t :: ts)))

/-! ### Whole programs -/

/-- What is blamed among the tokens where parsing resumes is blamed among all of them. -/
theorem Blames.of_resumes {stop w : LocatedToken} (h : b.Blames (w :: rest ++ [stop]) d u)
    (hresumes : b.Resumes ts (w :: rest)) : b.Blames (ts ++ [stop]) d u := by
  obtain ⟨skipped, rfl, hskipped⟩ := hresumes
  rw [List.append_assoc]
  cases h with
  | @unexpected front rest' v u kind hl hv =>
    have hl' : skipped ++ (w :: rest ++ [stop]) = skipped ++ front ++ v :: u :: rest' := by
      rw [hl, List.append_assoc]
    exact .unexpected kind hl' hv
  | @unrecognised front rest' u hl hu hfront =>
    have hl' : skipped ++ (w :: rest ++ [stop]) = skipped ++ front ++ u :: rest' := by
      rw [hl, List.append_assoc]
    refine .unrecognised hl' hu ?_
    intro v hv
    rcases List.eq_nil_or_concat' front with rfl | ⟨front, x, rfl⟩
    · obtain rfl : w = u := (List.cons.inj hl).1
      rcases hskipped w rfl with hstart | ⟨x, hx, hopens⟩
      · rw [hu] at hstart
        cases hstart
      · rw [List.append_nil] at hv
        obtain rfl : x = v := Option.mem_unique hx hv
        exact hopens
    · apply hfront
      rw [List.getLast?_concat]
      rwa [← List.append_assoc, List.getLast?_concat] at hv
  | invalidNumber hl hu => exact .invalidNumber (List.mem_append_right skipped hl) hu

theorem exists_append_eq_cons_head (b : Batch) (ts : List LocatedToken) :
    ∃ rest, ts ++ [b.stop] = b.head ts :: rest := by
  cases ts with
  | nil => exact ⟨[], rfl⟩
  | cons t ts => exact ⟨ts ++ [b.stop], rfl⟩

theorem Fails.exists_blames (h : b.Fails ts d rest) : ∃ u, b.Blames (ts ++ [b.stop]) d u := by
  cases h with
  | @unrecognised t rest hts ht =>
    have hl : ts ++ [b.stop] = [] ++ t :: (rest ++ [b.stop]) := congrArg (· ++ [b.stop]) hts
    exact ⟨t, .unrecognised hl ht nofun⟩
  | invalidNumber hts ht =>
    refine ⟨_, .invalidNumber ?_ ht⟩
    rw [hts]
    exact List.mem_append_left _ List.mem_cons_self
  | @unexpected front rest v kind hts hv =>
    obtain ⟨rest', hrest⟩ := b.exists_append_eq_cons_head rest
    have hl : ts ++ [b.stop] = front ++ v :: b.head rest :: rest' := by
      rw [hts, List.append_assoc, List.cons_append, hrest]
    exact ⟨b.head rest, .unexpected kind hl hv⟩

/-- Every diagnostic blames a token of the text or its end. -/
theorem exists_blames_of_mem_parseAll (b : Batch) (ts : List LocatedToken) :
    ∀ d ∈ (b.parseAll ts).2, ∃ u, b.Blames (ts ++ [b.stop]) d u := by
  -- what is blamed later on is blamed where parsing has resumed
  have hlater {ts rest : List LocatedToken} (hresumes : b.Resumes ts rest)
      (ih : ∀ d ∈ (b.parseAll rest).2, ∃ u, b.Blames (rest ++ [b.stop]) d u) :
      ∀ d ∈ (b.parseAll rest).2, ∃ u, b.Blames (ts ++ [b.stop]) d u := by
    intro d hd
    obtain ⟨u, hu⟩ := ih d hd
    cases rest with
    | nil =>
      rw [parseAll] at hd
      cases hd
    | cons w rest => exact ⟨u, hu.of_resumes hresumes⟩
  induction ts using parseAll.induct b with
  | case1 =>
    intro d hd
    rw [parseAll] at hd
    cases hd
  | case2 t ts node? hresult ih =>
    rw [parseAll_of_ok (Prod.ext hresult rfl)]
    exact hlater (resumes_of_ok hresult) ih
  | case3 t ts d hresult ih =>
    have hfails : b.Fails (t :: ts) d _ := fails_of_parseStatement (Prod.ext hresult rfl)
    rw [parseAll_of_error (Prod.ext hresult rfl)]
    exact List.forall_mem_cons.2 ⟨hfails.exists_blames, hlater (b.resumes_of_error t ts) ih⟩

end Batch

end MonkeyLang
