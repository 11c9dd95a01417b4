import Mathlib.Data.List.Basic
import Mathlib.Data.List.Induction
import Mathlib.Data.List.TakeWhile
import MonkeyLang.Proofs.CommandLine.FarFault
import MonkeyLang.Proofs.Token.Concat

/-!
# Arguments and outcomes

An argument ends the reading of the arguments because of what it is or because of those in front
of it (`Ends`). Where none does, all that is left of the arguments is whether the tokens are asked
for and which path is given, so that neither the place of an option nor its number counts. What the
program leaves behind then depends on nothing else but what is read from that path (`Leaves`). A
diagnostic whose caret does not fit keeps the program from being printed (`outcome_farFault`).
-/

namespace MonkeyLang

open Text

/-! ### Arguments that end the reading -/

/-- An argument that asks for help. -/
def IsHelp (arg : String) : Prop :=
  arg = "-h" ∨ arg = "--help"

instance : DecidablePred IsHelp := fun _ => inferInstanceAs (Decidable (_ ∨ _))

/-- An argument that starts with a dash. The others are paths. -/
def IsOption (arg : String) : Prop :=
  arg.toList.head? = some '-'

instance : DecidablePred IsOption := fun _ => inferInstanceAs (Decidable (_ = _))

theorem IsHelp.ne_tokens {arg : String} (h : IsHelp arg) : arg ≠ "--tokens" := by
  rcases h with rfl | rfl <;> decide

theorem isOption_tokens : IsOption "--tokens" := by
  decide

/-- An argument behind others ends the reading if it asks for help, if it is an option that there
is not, or if it is a second path. -/
inductive Ends (before : List String) (arg : String) : Prop
  | help (h : IsHelp arg)
  | unknown (hoption : IsOption arg) (h : arg ≠ "--tokens")
  | surplus {path : String} (hmem : path ∈ before) (hpath : ¬ IsOption path)
      (harg : ¬ IsOption arg)

/-- No argument ends the reading. -/
def NoneEnds (args : List String) : Prop :=
  ∀ before arg behind, args = before ++ arg :: behind → ¬ Ends before arg

/-- What is printed, given the arguments so far. -/
def givenMode (args : List String) : Mode :=
  if "--tokens" ∈ args then .tokens else .program

/-- The paths among the arguments. -/
def givenPaths (args : List String) : List String :=
  args.filter fun arg => ¬ IsOption arg

section

variable {before behind args : List String} {arg : String}

theorem noneEnds_nil : NoneEnds [] := by
  intro before arg behind h
  simp at h

theorem noneEnds_concat_iff : NoneEnds (before ++ [arg]) ↔ NoneEnds before ∧ ¬ Ends before arg := by
  constructor
  · intro h
    refine ⟨fun front a behind hsplit => h front a (behind ++ [arg]) ?_, h before arg [] rfl⟩
    rw [hsplit, List.append_assoc, List.cons_append]
  · rintro ⟨hbefore, harg⟩ front a behind hsplit
    rcases List.eq_nil_or_concat' behind with rfl | ⟨behind, b, rfl⟩
    · obtain ⟨rfl, hlast⟩ := List.append_inj' hsplit rfl
      obtain rfl : arg = a := by simpa using hlast
      exact harg
    · rw [← List.cons_append, ← List.append_assoc] at hsplit
      exact hbefore front a behind (List.append_inj' hsplit rfl).1

/-- If an argument ends the reading then there is a first one that does. -/
theorem noneEnds_or_exists_first (args : List String) :
    NoneEnds args ∨ ∃ before arg behind, args = before ++ arg :: behind ∧ NoneEnds before ∧
      Ends before arg := by
  induction args using List.reverseRecOn with
  | nil => exact .inl noneEnds_nil
  | append_singleton args last ih =>
    rcases ih with hnone | ⟨before, arg, behind, rfl, hnone, hends⟩
    · by_cases hends : Ends args last
      · exact .inr ⟨args, last, [], rfl, hnone, hends⟩
      · exact .inl (noneEnds_concat_iff.2 ⟨hnone, hends⟩)
    · refine .inr ⟨before, arg, behind ++ [last], ?_, hnone, hends⟩
      rw [List.append_assoc, List.cons_append]

/-! ### The state behind some of the arguments -/

theorem mem_givenPaths : arg ∈ givenPaths args ↔ arg ∈ args ∧ ¬ IsOption arg := by
  simp [givenPaths]

theorem givenPaths_concat_of_isOption (h : IsOption arg) :
    givenPaths (before ++ [arg]) = givenPaths before := by
  simp [givenPaths, h]

theorem givenPaths_concat_of_not_ends (harg : ¬ Ends before arg) (hpath : ¬ IsOption arg) :
    givenPaths before = [] ∧ givenPaths (before ++ [arg]) = [arg] := by
  have hnone : givenPaths before = [] := by
    rw [List.eq_nil_iff_forall_not_mem]
    intro path hgiven
    obtain ⟨hmem, hoption⟩ := mem_givenPaths.1 hgiven
    exact harg (.surplus hmem hoption hpath)
  refine ⟨hnone, ?_⟩
  rw [givenPaths, List.filter_append, ← givenPaths, hnone]
  simp [hpath]

/-- There is one path at most. -/
theorem NoneEnds.toList_head?_givenPaths (h : NoneEnds args) :
    (givenPaths args).head?.toList = givenPaths args := by
  induction args using List.reverseRecOn with
  | nil => rfl
  | append_singleton before arg ih =>
    obtain ⟨hbefore, harg⟩ := noneEnds_concat_iff.1 h
    by_cases hoption : IsOption arg
    · rw [givenPaths_concat_of_isOption hoption, ih hbefore]
    · rw [(givenPaths_concat_of_not_ends harg hoption).2]
      rfl

theorem givenMode_concat_of_ne (h : arg ≠ "--tokens") :
    givenMode (before ++ [arg]) = givenMode before := by
  simp [givenMode, h.symm]

theorem ofArgsFrom_cons (mode : Mode) (path : Option String) (arg : String)
    (behind : List String) :
    Command.ofArgsFrom mode path (arg :: behind) =
      if arg = "--tokens" then Command.ofArgsFrom .tokens path behind
      else if IsHelp arg then .help
      else if path = none ∧ ¬ IsOption arg then Command.ofArgsFrom mode (some arg) behind
      else .misuse :=
  rfl

/-- Of the arguments in front of one, only the paths count. -/
theorem ends_iff :
    Ends before arg ↔
      IsHelp arg ∨ arg ≠ "--tokens" ∧ (IsOption arg ∨ givenPaths before ≠ []) := by
  constructor
  · intro h
    cases h with
    | help h => exact .inl h
    | unknown hoption h => exact .inr ⟨h, .inl hoption⟩
    | surplus hmem hpath harg =>
      refine .inr ⟨?_, .inr (List.ne_nil_of_mem (mem_givenPaths.2 ⟨hmem, hpath⟩))⟩
      rintro rfl
      exact harg isOption_tokens
  · rintro (h | ⟨htokens, hoption | hpaths⟩)
    · exact .help h
    · exact .unknown hoption htokens
    · obtain ⟨path, hpath⟩ := List.exists_mem_of_ne_nil _ hpaths
      by_cases hoption : IsOption arg
      · exact .unknown hoption htokens
      · exact .surplus (mem_givenPaths.1 hpath).1 (mem_givenPaths.1 hpath).2 hoption

/-- An argument that does not end the reading is taken into account. -/
theorem ofArgsFrom_cons_of_not_ends (h : ¬ Ends before arg) (behind : List String) :
    Command.ofArgsFrom (givenMode before) (givenPaths before).head? (arg :: behind) =
      Command.ofArgsFrom (givenMode (before ++ [arg])) (givenPaths (before ++ [arg])).head?
        behind := by
  by_cases htokens : arg = "--tokens"
  · subst htokens
    rw [ofArgsFrom_cons, if_pos rfl, givenPaths_concat_of_isOption isOption_tokens]
    simp [givenMode]
  · have hhelp : ¬ IsHelp arg := fun hhelp => h (.help hhelp)
    have hoption : ¬ IsOption arg := fun hoption => h (.unknown hoption htokens)
    obtain ⟨hnone, hpath⟩ := givenPaths_concat_of_not_ends h hoption
    rw [ofArgsFrom_cons, if_neg htokens, if_neg hhelp, hnone, hpath,
      if_pos ⟨rfl, hoption⟩, givenMode_concat_of_ne htokens, List.head?_cons]

/-- The argument that ends the reading says how it ends, whatever is behind it. -/
theorem ofArgsFrom_cons_of_ends (h : Ends before arg) (behind : List String) :
    Command.ofArgsFrom (givenMode before) (givenPaths before).head? (arg :: behind) =
      if IsHelp arg then .help else .misuse := by
  by_cases hhelp : IsHelp arg
  · rw [ofArgsFrom_cons, if_neg hhelp.ne_tokens, if_pos hhelp, if_pos hhelp]
  · obtain ⟨htokens, hcause⟩ := (ends_iff.1 h).resolve_left hhelp
    have hmisuse : ¬ ((givenPaths before).head? = none ∧ ¬ IsOption arg) := by
      rw [List.head?_eq_none_iff, not_and_or, not_not]
      exact hcause.symm
    rw [ofArgsFrom_cons, if_neg htokens, if_neg hhelp, if_neg hmisuse, if_neg hhelp]

theorem ofArgs_append_of_noneEnds (h : NoneEnds before) (behind : List String) :
    Command.ofArgs (before ++ behind) =
      Command.ofArgsFrom (givenMode before) (givenPaths before).head? behind := by
  induction before using List.reverseRecOn generalizing behind with
  | nil => rfl
  | append_singleton before arg ih =>
    obtain ⟨hbefore, harg⟩ := noneEnds_concat_iff.1 h
    rw [List.append_assoc, List.singleton_append, ih hbefore, ofArgsFrom_cons_of_not_ends harg]

theorem ofArgs_of_ends (hbefore : NoneEnds before) (harg : Ends before arg) :
    Command.ofArgs (before ++ arg :: behind) = if IsHelp arg then .help else .misuse := by
  rw [ofArgs_append_of_noneEnds hbefore, ofArgsFrom_cons_of_ends harg]

example : Command.ofArgs ["a.mk", "--tokens", "-v", "--help"] = .misuse := by decide

theorem NoneEnds.ofArgs_eq (h : NoneEnds args) :
    Command.ofArgs args = .print (givenMode args) (givenPaths args).head? := by
  have hread := ofArgs_append_of_noneEnds h []
  rwa [List.append_nil] at hread

end

/-! ### The name of a source -/

/-- The name of a source is what stands behind the last slash of its path. -/
inductive Names : Option String → String → Prop
  | stdin : Names none "stdin"
  | plain {name : String} (h : '/' ∉ name.toList) : Names (some name) name
  | nested (directory : String) {name : String} (h : '/' ∉ name.toList) :
      Names (some (directory ++ "/" ++ name)) name

theorem fileName_of_not_mem {name : String} (h : '/' ∉ name.toList) :
    CommandLine.fileName name = name := by
  have hall : ∀ c ∈ name.toList.reverse, decide (c ≠ '/') := by
    intro c hc
    rw [decide_eq_true_iff]
    rintro rfl
    exact h (List.mem_reverse.1 hc)
  rw [CommandLine.fileName, List.takeWhile_eq_self_iff.2 hall, List.reverse_reverse,
    String.ofList_toList]

/-- What is in front of a slash does not count. -/
theorem fileName_append_slash (directory name : String) :
    CommandLine.fileName (directory ++ "/" ++ name) = CommandLine.fileName name := by
  have hreverse : (directory ++ "/" ++ name).toList.reverse =
      name.toList.reverse ++ '/' :: directory.toList.reverse := by simp
  rw [CommandLine.fileName, CommandLine.fileName, hreverse, takeWhile_append_of_head?]
  rintro - d ⟨rfl⟩
  decide

theorem Names.sourceName_eq {path : Option String} {name : String} (h : Names path name) :
    CommandLine.sourceName path = name := by
  cases h with
  | stdin => rfl
  | plain h => exact fileName_of_not_mem h
  | nested directory h => exact (fileName_append_slash _ _).trans (fileName_of_not_mem h)

theorem exists_names (path : Option String) : ∃ name, Names path name := by
  cases path with
  | none => exact ⟨_, .stdin⟩
  | some path =>
    by_cases hslash : '/' ∈ path.toList
    · -- the last slash is the first of the reversed path
      obtain ⟨back, front, hsplit, hback⟩ := List.eq_append_cons_of_mem (List.mem_reverse.2 hslash)
      have hpath : path = String.ofList front.reverse ++ "/" ++ String.ofList back.reverse := by
        rw [← String.toList_inj, ← List.reverse_inj, hsplit]
        simp
      rw [hpath]
      exact ⟨_, .nested _ (by simpa using hback)⟩
    · exact ⟨path, .plain hslash⟩

theorem names_iff {path : Option String} {name : String} :
    Names path name ↔ CommandLine.sourceName path = name := by
  refine ⟨Names.sourceName_eq, ?_⟩
  rintro rfl
  obtain ⟨name, h⟩ := exists_names path
  rwa [h.sourceName_eq]

/-! ### What is left behind -/

/-- What a run that prints a source leaves behind, given what was read from the path. -/
inductive Leaves (path : Option String) : Mode → Except ReadError ByteArray → Outcome → Prop
  | unreadable (mode : Mode) (e : ReadError) :
      Leaves path mode (.error e) ⟨1, "", "Failed to read input: " ++ e.message ++ "\n"⟩
  | undecodable (mode : Mode) {bytes : ByteArray} (h : ∀ source : String, source.toUTF8 ≠ bytes) :
      Leaves path mode (.ok bytes)
        ⟨1, "", "Failed to read input: stream did not contain valid UTF-8\n"⟩
  | tokens {source name : String} (hname : Names path name) :
      Leaves path .tokens (.ok source.toUTF8)
        ⟨0, String.join ((tokenize source (some name)).map fun t => t.display ++ "\n"), ""⟩
  | clean {source name : String} (hname : Names path name) {program : Program}
      (h : parse source (some name) = (program, #[])) :
      Leaves path .program (.ok source.toUTF8) ⟨0, program.display ++ "\n", ""⟩
  | faulty {source name : String} (hname : Names path name) {program : Program}
      {diagnostics : Array Diagnostic} (h : parse source (some name) = (program, diagnostics))
      (hfault : diagnostics ≠ #[]) (hfits : ∀ d ∈ diagnostics, d.CaretFits source) :
      Leaves path .program (.ok source.toUTF8)
        ⟨1, program.display ++ "\n",
          String.join (diagnostics.toList.map fun d => d.report source)⟩
  | broken {source name : String} (hname : Names path name) {before behind : List Diagnostic}
      {d : Diagnostic} (h : (parse source (some name)).2.toList = before ++ d :: behind)
      (hbefore : ∀ e ∈ before, e.CaretFits source) (hd : ¬ d.CaretFits source) :
      Leaves path .program (.ok source.toUTF8)
        ⟨101, "", String.join (before.map fun e => e.report source)⟩

theorem decode_of_forall_ne {bytes : ByteArray} (h : ∀ source : String, source.toUTF8 ≠ bytes) :
    CommandLine.decode (.ok bytes) = .error .invalidUtf8 := by
  have hinvalid : String.fromUTF8? bytes = none :=
    dif_neg fun hvalid => h (String.fromUTF8 bytes hvalid) rfl
  rw [CommandLine.decode, hinvalid]

theorem printInput_toUTF8 {path : Option String} {name : String} (hname : Names path name)
    (mode : Mode) (source : String) :
    CommandLine.printInput mode path (.ok source.toUTF8) =
      CommandLine.printSource mode name source := by
  rw [CommandLine.printInput_of_decode (CommandLine.decode_toUTF8 source), hname.sourceName_eq]

theorem Leaves.printInput_eq {path : Option String} {mode : Mode}
    {input : Except ReadError ByteArray} {outcome : Outcome} (h : Leaves path mode input outcome) :
    CommandLine.printInput mode path input = outcome := by
  cases h with
  | unreadable mode e => rfl
  | undecodable mode h =>
    rw [CommandLine.printInput, decode_of_forall_ne h]
    rfl
  | tokens hname =>
    rw [printInput_toUTF8 hname]
    rfl
  | clean hname h =>
    rw [printInput_toUTF8 hname]
    exact CommandLine.printSource_of_parse h
  | faulty hname h hfault hfits =>
    rw [printInput_toUTF8 hname, CommandLine.printSource_of_caretFits h hfits,
      if_neg (mt Array.isEmpty_iff.1 hfault)]
  | broken hname h hbefore hd =>
    rw [printInput_toUTF8 hname, CommandLine.printSource_of_not_caretFits h hbefore hd]

theorem leaves_printInput (path : Option String) (mode : Mode)
    (input : Except ReadError ByteArray) :
    Leaves path mode input (CommandLine.printInput mode path input) := by
  have hname : Names path (CommandLine.sourceName path) := names_iff.2 rfl
  suffices h : ∃ outcome, Leaves path mode input outcome by
    obtain ⟨outcome, h⟩ := h
    rwa [h.printInput_eq]
  cases input with
  | error e => exact ⟨_, .unreadable mode e⟩
  | ok bytes =>
    by_cases hdecodes : ∃ source : String, source.toUTF8 = bytes
    · obtain ⟨source, rfl⟩ := hdecodes
      cases mode with
      | tokens => exact ⟨_, .tokens hname⟩
      | program =>
        rcases CommandLine.caretFits_or_exists_first source
          (parse source (some (CommandLine.sourceName path))).2 with hfits |
          ⟨before, d, behind, hsplit, hbefore, hd⟩
        · by_cases hfault : (parse source (some (CommandLine.sourceName path))).2 = #[]
          · exact ⟨_, .clean hname (Prod.ext rfl hfault)⟩
          · exact ⟨_, .faulty hname rfl hfault hfits⟩
        · exact ⟨_, .broken hname hsplit hbefore hd⟩
    · exact ⟨_, .undecodable mode (not_exists.1 hdecodes)⟩

/-- A path, a mode and what was read leave one outcome. -/
theorem leaves_iff {path : Option String} {mode : Mode} {input : Except ReadError ByteArray}
    {outcome : Outcome} :
    Leaves path mode input outcome ↔ CommandLine.printInput mode path input = outcome := by
  refine ⟨Leaves.printInput_eq, ?_⟩
  rintro rfl
  exact leaves_printInput path mode input

theorem report_ne_empty (d : Diagnostic) (source : String) : d.report source ≠ "" := by
  rw [← String.toList_inj.ne]
  simp [Diagnostic.report, Diagnostic.reportLines]

/-- Unless the run is broken off, nothing is said on standard error if and only if all went well. -/
theorem Leaves.exitCode_eq_zero_iff {path : Option String} {mode : Mode}
    {input : Except ReadError ByteArray} {outcome : Outcome} (h : Leaves path mode input outcome)
    (hcode : outcome.exitCode ≠ 101) : outcome.exitCode = 0 ↔ outcome.stderr = "" := by
  cases h with
  | unreadable mode e => simp [← String.toList_inj]
  | undecodable mode h => decide
  | tokens hname => exact iff_of_true rfl rfl
  | clean hname h => exact iff_of_true rfl rfl
  | broken hname h hbefore hd => exact absurd rfl hcode
  | @faulty source name hname program diagnostics h hfault hfits =>
    obtain ⟨d, hd⟩ := List.exists_mem_of_ne_nil diagnostics.toList (by simpa using hfault)
    refine iff_of_false (show ¬ (1 : UInt8) = 0 by decide) fun hstderr => ?_
    have hreports :
        (diagnostics.toList.map fun d => d.report source).flatMap String.toList = [] := by
      rw [← String.toList_join]
      exact String.toList_eq_nil_iff.2 hstderr
    have hreport := List.flatMap_eq_nil_iff.1 hreports _ (List.mem_map_of_mem hd)
    exact report_ne_empty d source (String.toList_eq_nil_iff.1 hreport)

/-! ### Runs -/

section

variable {m : Type → Type} [Monad m] {read : Option String → m (Except ReadError ByteArray)}
  {args before behind : List String} {arg : String}

/-- A run that an argument ends reads nothing. -/
theorem run_of_ends (hbefore : NoneEnds before) (harg : Ends before arg) :
    CommandLine.run read (before ++ arg :: behind) =
      pure (if IsHelp arg then ⟨0, CommandLine.usage, ""⟩ else ⟨2, "", CommandLine.usage⟩) := by
  rw [CommandLine.run, ofArgs_of_ends hbefore harg]
  by_cases hhelp : IsHelp arg
  · rw [if_pos hhelp, if_pos hhelp]
  · rw [if_neg hhelp, if_neg hhelp]

theorem NoneEnds.run_eq (h : NoneEnds args) :
    CommandLine.run read args = do
      return CommandLine.printInput (givenMode args) (givenPaths args).head?
        (← read (givenPaths args).head?) := by
  rw [CommandLine.run, h.ofArgs_eq]

end

/-- Of the runs that are not broken off, one that says nothing on standard error ends with exit code
0, and no other does. -/
theorem exitCode_outcome_eq_zero_iff {read : Option String → Except ReadError ByteArray}
    {args : List String} (hcode : (CommandLine.outcome read args).exitCode ≠ 101) :
    (CommandLine.outcome read args).exitCode = 0 ↔
      (CommandLine.outcome read args).stderr = "" := by
  rcases noneEnds_or_exists_first args with h | ⟨before, arg, behind, rfl, hbefore, harg⟩
  · rw [CommandLine.outcome_of_print h.ofArgs_eq] at hcode ⊢
    exact (leaves_printInput _ _ _).exitCode_eq_zero_iff hcode
  · rw [CommandLine.outcome, run_of_ends hbefore harg]
    by_cases hhelp : IsHelp arg
    · rw [if_pos hhelp]
      exact iff_of_true rfl rfl
    · rw [if_neg hhelp]
      exact iff_of_false (by decide) (by decide)

/-- The first argument that ends the reading decides what a run does, and then nothing is read. If
there is none then one source is read, and what it leaves behind depends on the path, on what was
read from there, and on whether the tokens are asked for anywhere among the arguments. The program
and the reports of all diagnostics are printed exactly if the caret of each diagnostic fits. -/
theorem run_cases {m : Type → Type} [Monad m]
    (read : Option String → m (Except ReadError ByteArray)) :
    (∀ args, NoneEnds args ∨ ∃ before arg behind, args = before ++ arg :: behind ∧
      NoneEnds before ∧ Ends before arg) ∧
    (∀ before arg behind, NoneEnds before → Ends before arg →
      CommandLine.run read (before ++ arg :: behind) =
        pure (if IsHelp arg then ⟨0, "usage: monkey [--tokens] [FILE]\n", ""⟩
          else ⟨2, "", "usage: monkey [--tokens] [FILE]\n"⟩)) ∧
    (∀ args, NoneEnds args →
      ∃ (path : Option String) (answer : Except ReadError ByteArray → Outcome),
        givenPaths args = path.toList ∧
        (∀ input outcome,
          Leaves path (givenMode args) input outcome ↔ answer input = outcome) ∧
        CommandLine.run read args = do return answer (← read path)) ∧
    (∀ path name source outcome, Names path name →
      Leaves path .program (.ok source.toUTF8) outcome →
      let result := parse source (some name)
      (outcome = ⟨if result.2.isEmpty then 0 else 1, result.1.display ++ "\n",
          String.join (result.2.toList.map fun d => d.report source)⟩ ↔
        ∀ d ∈ result.2, d.CaretFits source)) ∧
    ∀ args args', NoneEnds args → NoneEnds args' → ("--tokens" ∈ args ↔ "--tokens" ∈ args') →
      givenPaths args = givenPaths args' →
      CommandLine.run read args = CommandLine.run read args' := by
  refine ⟨noneEnds_or_exists_first, fun before arg behind => run_of_ends, ?_, ?_, ?_⟩
  · intro args hnone
    exact ⟨(givenPaths args).head?, _, hnone.toList_head?_givenPaths.symm,
      fun input outcome => leaves_iff, hnone.run_eq⟩
  · intro path name source outcome hname hleaves result
    rw [← hleaves.printInput_eq, printInput_toUTF8 hname]
    exact CommandLine.printSource_eq_iff name source
  · intro args args' h h' htokens hpaths
    have hmode : givenMode args = givenMode args' := by simp only [givenMode, htokens]
    rw [h.run_eq, h'.run_eq, hmode, hpaths]

/-- Help in front of an option that there is not, a second path, a path that leads nowhere, a clean
source on standard input, a faulty one in a file, and the tokens of that file, asked for twice. -/
theorem run_cases_small :
    let read (path : Option String) : Except ReadError ByteArray :=
      if path = none then .ok "let x = 1;".toUTF8
      else if path = some "a/b.mk" then .ok "x ==".toUTF8
      else .error (.system "No such file or directory" 2)
    CommandLine.outcome read ["--tokens", "-h", "-v"] =
        ⟨0, "usage: monkey [--tokens] [FILE]\n", ""⟩ ∧
      CommandLine.outcome read ["a/b.mk", "c.mk", "-h"] =
        ⟨2, "", "usage: monkey [--tokens] [FILE]\n"⟩ ∧
      CommandLine.outcome read ["c.mk"] =
        ⟨1, "", "Failed to read input: No such file or directory (os error 2)\n"⟩ ∧
      CommandLine.outcome read [] = ⟨0, "let x = ;\n", ""⟩ ∧
      CommandLine.outcome read ["a/b.mk"] =
        ⟨1, "\n", "Error: UnrecognisedStatement (no statement starts with `x`)\n" ++
          "-> b.mk\n  |\n1 | x ==\n  | ^\n"⟩ ∧
      CommandLine.outcome read ["a/b.mk", "--tokens"] = ⟨0, "IDENT(x)\n==\nEOF\n", ""⟩ ∧
      CommandLine.outcome read ["--tokens", "a/b.mk", "--tokens"] =
        CommandLine.outcome read ["a/b.mk", "--tokens"] := by
  intro read
  obtain ⟨-, hends, hprints, -, hsame⟩ :=
    run_cases fun path => (pure (read path) : Id (Except ReadError ByteArray))
  have hprint {args : List String} (path : Option String) {outcome : Outcome}
      (hnone : NoneEnds args) (hpath : givenPaths args = path.toList)
      (hleaves : Leaves path (givenMode args) (read path) outcome) :
      CommandLine.outcome read args = outcome := by
    obtain ⟨path', answer, hpath', hanswer, hrun⟩ := hprints args hnone
    obtain rfl : path = path' := by
      simpa using congrArg List.head? (hpath.symm.trans hpath')
    exact (congrArg Id.run hrun).trans ((hanswer _ _).1 hleaves)
  have hname : Names (some "a/b.mk") "b.mk" := names_iff.2 (by decide)
  have htokens : NoneEnds ([] ++ ["--tokens"]) := by
    simp only [noneEnds_concat_iff, ends_iff]
    exact ⟨noneEnds_nil, by decide⟩
  have hpath (path : String) (h : ¬ Ends [] path) : NoneEnds ([] ++ [path]) :=
    noneEnds_concat_iff.2 ⟨noneEnds_nil, h⟩
  have hfile : NoneEnds ([] ++ ["a/b.mk"]) := hpath "a/b.mk" (by rw [ends_iff]; decide)
  have hlisted : NoneEnds ([] ++ ["a/b.mk"] ++ ["--tokens"]) :=
    noneEnds_concat_iff.2 ⟨hfile, by rw [ends_iff]; decide⟩
  have htwice : NoneEnds ([] ++ ["--tokens"] ++ ["a/b.mk"] ++ ["--tokens"]) := by
    simp only [noneEnds_concat_iff, ends_iff]
    exact ⟨⟨⟨noneEnds_nil, by decide⟩, by decide⟩, by decide⟩
  refine ⟨?_, ?_, ?_, ?_, ?_, ?_, ?_⟩
  · exact congrArg Id.run (hends ["--tokens"] "-h" ["-v"] htokens (.help (.inl rfl)))
  · exact congrArg Id.run (hends ["a/b.mk"] "c.mk" ["-h"] hfile
      (.surplus List.mem_cons_self (by decide) (by decide)))
  · exact hprint (some "c.mk") (hpath "c.mk" (by rw [ends_iff]; decide)) (by decide)
      (.unreadable _ _)
  · have hclean : parse "let x = 1;" (some "stdin") =
        (⟨[.letStatement ⟨.letWord, "let"⟩ (.ofToken ⟨.ident, "x"⟩) none]⟩, #[]) := by
      decide +kernel
    exact hprint none noneEnds_nil rfl (.clean .stdin hclean)
  · have hfaulty : parse "x ==" (some "b.mk") =
        (⟨[]⟩, #[⟨.unrecognisedStatement ⟨.ident, "x"⟩, ⟨0, "b.mk"⟩⟩]) := by
      decide +kernel
    refine (hprint (some "a/b.mk") hfile (by decide)
      (.faulty hname hfaulty (by decide) (by decide +kernel))).trans ?_
    decide +kernel
  · refine (hprint (some "a/b.mk") hlisted (by decide) (.tokens hname)).trans ?_
    decide +kernel
  · exact congrArg Id.run (hsame _ _ htwice hlisted (by decide) (by decide))

/-- Behind a statement and seventy thousand spaces a fault keeps the statement from being printed. -/
theorem outcome_farFault :
    let source := farFault 70000
    let read : Option String → Except ReadError ByteArray := fun _ => .ok source.toUTF8
    NoneEnds [] ∧ (parse source (some "stdin")).1.display ++ "\n" = "let x = ;\n" ∧
      (parse source (some "stdin")).2.toList = [farDiagnostic 70000] ∧
      CommandLine.outcome read [] = ⟨101, "", ""⟩ := by
  intro source read
  obtain ⟨hprogram, hfaults⟩ := parse_farFault 70000
  refine ⟨noneEnds_nil, ?_, hfaults, outcome_of_farFault rfl (by decide) (by decide)⟩
  rw [hprogram]
  decide

end MonkeyLang
