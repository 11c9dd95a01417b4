import MonkeyLang.CommandLine
import MonkeyLang.Proofs.Diagnostic.Width

/-!
# The outcome of a run

What the program leaves behind where reading a source is a function of its path. If the arguments
ask for a source to be printed, the outcome is that of printing what was read from its path. The
reports are printed up to the first diagnostic whose caret does not fit, and then the program only
if there is none (`printSource_of_caretFits`, `printSource_of_not_caretFits`).
-/

namespace MonkeyLang

namespace CommandLine

/-- The outcome of a run where `read` gives what each path holds. -/
def outcome (read : Option String → Except ReadError ByteArray) (args : List String) : Outcome :=
  Id.run (run (fun path => pure (read path)) args)

variable {read : Option String → Except ReadError ByteArray} {args : List String}
  {path : Option String} {source : String}

theorem outcome_of_print {mode : Mode} (h : Command.ofArgs args = .print mode path) :
    outcome read args = printInput mode path (read path) := by
  rw [outcome, run, h]
  rfl

theorem printInput_of_decode {input : Except ReadError ByteArray} (h : decode input = .ok source)
    (mode : Mode) (path : Option String) :
    printInput mode path input = printSource mode (sourceName path) source := by
  rw [printInput, h]

/-- What a text is stored in is read as the text. -/
theorem decode_toUTF8 (source : String) : decode (.ok source.toUTF8) = .ok source := by
  have hvalid : String.fromUTF8? source.toUTF8 = some source := dif_pos source.isValidUTF8
  rw [decode, hvalid]

/-! ### Printing reports -/

theorem printReport_of_caretFits {d : Diagnostic} (h : d.CaretFits source) (printed : String) :
    printReport source printed d = .ok (printed ++ d.report source) := by
  rw [printReport, Diagnostic.report?_of_caretFits h]

theorem printReport_of_not_caretFits {d : Diagnostic} (h : ¬ d.CaretFits source) (printed : String) :
    printReport source printed d = .error printed := by
  rw [printReport, Diagnostic.report?_of_not_caretFits h]

/-- Reports that there are get printed behind what has been printed. -/
theorem foldlM_printReport {ds : List Diagnostic} (h : ∀ d ∈ ds, d.CaretFits source)
    (printed : String) :
    ds.foldlM (printReport source) printed =
      .ok (printed ++ String.join (ds.map fun d => d.report source)) := by
  induction ds generalizing printed with
  | nil => rw [List.foldlM_nil, List.map_nil, String.join_nil, String.append_empty]; rfl
  | cons d ds ih =>
    obtain ⟨hd, hds⟩ := List.forall_mem_cons.1 h
    rw [List.foldlM_cons, printReport_of_caretFits hd, List.map_cons, String.join_cons,
      ← String.append_assoc]
    exact ih hds _

theorem printReports_of_caretFits {ds : List Diagnostic} (h : ∀ d ∈ ds, d.CaretFits source) :
    printReports source ds = .ok (String.join (ds.map fun d => d.report source)) := by
  rw [printReports, foldlM_printReport h, String.empty_append]

/-- Nothing is printed from the first diagnostic on that has no report. -/
theorem printReports_of_not_caretFits {before behind : List Diagnostic} {d : Diagnostic}
    (hbefore : ∀ e ∈ before, e.CaretFits source) (hd : ¬ d.CaretFits source) :
    printReports source (before ++ d :: behind) =
      .error (String.join (before.map fun e => e.report source)) := by
  rw [printReports, List.foldlM_append, foldlM_printReport hbefore, String.empty_append]
  show (d :: behind).foldlM (printReport source) _ = _
  rw [List.foldlM_cons, printReport_of_not_caretFits hd]
  rfl

/-! ### Printing programs -/

/-- A program is printed if there is a report of each of its diagnostics. -/
theorem printSource_of_caretFits {name : String} {p : Program} {ds : Array Diagnostic}
    (h : parse source (some name) = (p, ds)) (hfits : ∀ d ∈ ds, d.CaretFits source) :
    printSource .program name source =
      ⟨if ds.isEmpty then 0 else 1, p.display ++ "\n",
        String.join (ds.toList.map fun d => d.report source)⟩ := by
  have hreports : printReports source ds.toList = .ok _ :=
    printReports_of_caretFits fun d hd => hfits d (Array.mem_toList_iff.1 hd)
  simp only [printSource, h, hreports]

/-- A diagnostic without a report keeps the program from being printed. -/
theorem printSource_of_not_caretFits {name : String} {before behind : List Diagnostic} {d : Diagnostic}
    (h : (parse source (some name)).2.toList = before ++ d :: behind)
    (hbefore : ∀ e ∈ before, e.CaretFits source) (hd : ¬ d.CaretFits source) :
    printSource .program name source =
      ⟨101, "", String.join (before.map fun e => e.report source)⟩ := by
  simp only [printSource, h, printReports_of_not_caretFits hbefore hd]

/-- The caret of each diagnostic fits, or there is a first one whose caret does not. -/
theorem caretFits_or_exists_first (source : String) (ds : Array Diagnostic) :
    (∀ d ∈ ds, d.CaretFits source) ∨
      ∃ before d behind, ds.toList = before ++ d :: behind ∧
        (∀ e ∈ before, e.CaretFits source) ∧ ¬ d.CaretFits source := by
  cases h : ds.toList.find? fun d => ¬ d.CaretFits source with
  | none =>
    left
    intro d hd
    simpa using List.find?_eq_none.1 h d (Array.mem_toList_iff.2 hd)
  | some d =>
    obtain ⟨hd, before, behind, hsplit, hbefore⟩ := List.find?_eq_some_iff_append.1 h
    exact .inr ⟨before, d, behind, hsplit, by simpa using hbefore, by simpa using hd⟩

theorem not_forall_caretFits {ds : Array Diagnostic} {before behind : List Diagnostic}
    {d : Diagnostic} (h : ds.toList = before ++ d :: behind) (hd : ¬ d.CaretFits source) :
    ¬ ∀ e ∈ ds, e.CaretFits source := by
  intro hfits
  apply hd
  apply hfits
  rw [← Array.mem_toList_iff, h]
  exact List.mem_append_right before List.mem_cons_self

/-- All that there is to print gets printed exactly if the caret of each diagnostic fits. -/
theorem printSource_eq_iff (name source : String) :
    let result := parse source (some name)
    printSource .program name source =
        ⟨if result.2.isEmpty then 0 else 1, result.1.display ++ "\n",
          String.join (result.2.toList.map fun d => d.report source)⟩ ↔
      ∀ d ∈ result.2, d.CaretFits source := by
  intro result
  rcases caretFits_or_exists_first source result.2 with hfits | ⟨before, d, behind, hsplit, hrest⟩
  · exact iff_of_true (printSource_of_caretFits rfl hfits) hfits
  · refine iff_of_false ?_ (not_forall_caretFits hsplit hrest.2)
    rw [printSource_of_not_caretFits hsplit hrest.1 hrest.2]
    intro h
    have hcode : 101 = if result.2.isEmpty then (0 : UInt8) else 1 := congrArg Outcome.exitCode h
    split at hcode <;> exact absurd hcode (by decide)

/-- A source without diagnostics is printed as its program. -/
theorem printSource_of_parse {name : String} {p : Program}
    (h : parse source (some name) = (p, #[])) :
    printSource .program name source = ⟨0, p.display ++ "\n", ""⟩ :=
  printSource_of_caretFits h fun d hd => absurd hd (Array.not_mem_empty d)

end CommandLine

end MonkeyLang
