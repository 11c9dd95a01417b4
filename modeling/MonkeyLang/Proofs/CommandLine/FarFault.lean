import MonkeyLang.Proofs.CommandLine.Outcome
import MonkeyLang.Proofs.Program.Layout

/-!
# A fault far to the right

Spaces between the tokens of a line move a fault to the right and change nothing else. With enough
of them in front of it the fault has no report, and then the statement in front of the spaces is
not printed either (`outcome_of_farFault`).
-/

namespace MonkeyLang

open Text

/-- A statement and an illegal character, with spaces between them. -/
def farFault (n : Nat) : String :=
  "let x = 1;" ++ String.ofList (List.replicate n ' ') ++ "@"

/-- The diagnostic on the illegal character. -/
def farDiagnostic (n : Nat) : Diagnostic :=
  ⟨.unrecognisedStatement ⟨.illegal, "@"⟩, ⟨10 + UInt32.ofNat n, "stdin"⟩⟩

variable {n : Nat}

theorem toList_farFault (n : Nat) :
    (farFault n).toList = "let x = 1;".toList ++ List.replicate n ' ' ++ ['@'] := by
  have hspaces : (String.ofList (List.replicate n ' ')).toList = List.replicate n ' ' :=
    String.toList_ofList
  have hlast : "@".toList = ['@'] := by decide
  rw [farFault, String.toList_append, String.toList_append, hspaces, hlast]

theorem toNat_lt_of_mem_farFault : ∀ c ∈ (farFault n).toList, c.toNat < 128 := by
  have hstatement : "let x = 1;".toList.all fun c => c.toNat < 128 := by decide
  rw [toList_farFault]
  simp only [List.mem_append, List.mem_replicate, List.mem_singleton]
  rintro c ((hc | ⟨-, rfl⟩) | rfl)
  · exact of_decide_eq_true (List.all_eq_true.1 hstatement c hc)
  · decide
  · decide

theorem utf8ByteSize_farFault (n : Nat) : (farFault n).utf8ByteSize = n + 11 := by
  rw [← length_octets_eq_utf8ByteSize, octets_of_forall_lt toNat_lt_of_mem_farFault,
    toList_farFault]
  simp

/-- The spaces move the fault and nothing else. -/
theorem parse_farFault (n : Nat) :
    (parse (farFault n) (some "stdin")).1.display = "let x = ;" ∧
      (parse (farFault n) (some "stdin")).2.toList = [farDiagnostic n] := by
  have hspaces : (String.ofList (List.replicate n ' ')).utf8ByteSize = n := by
    have hsize := utf8ByteSize_farFault n
    rw [farFault, String.utf8ByteSize_append, String.utf8ByteSize_append] at hsize
    have hends : "let x = 1;".utf8ByteSize = 10 ∧ "@".utf8ByteSize = 1 := by decide
    omega
  have hw : ∀ c ∈ (String.ofList (List.replicate n ' ')).toList, isBlank c := by
    intro c hc
    rw [String.toList_ofList] at hc
    rw [List.eq_of_mem_replicate hc]
    rfl
  have hgap : ∀ t ∈ (Cursor.ofSource ("let x = 1;" ++ "@") (some "stdin")).tokens,
      ¬ t.Straddles "let x = 1;".utf8ByteSize := by
    unfold LocatedToken.Straddles
    decide +kernel
  have hsize : ("let x = 1;" ++ "@").utf8ByteSize < 2 ^ 32 := by decide
  have hfault : (parse ("let x = 1;" ++ "@") (some "stdin")).2.toList = [farDiagnostic 0] := by
    decide +kernel
  constructor
  · rw [farFault, statements_insert_blanks hw hgap hsize]
    decide +kernel
  · rw [farFault, diagnostics_insert_blanks hw hgap hsize, hfault, hspaces]
    rfl

/-- The caret stands below the illegal character, as far to the right as that is. -/
theorem caretFits_farDiagnostic (hn : n < 2 ^ 31) :
    (farDiagnostic n).CaretFits (farFault n) ↔ n + 11 ≤ maxWidth := by
  have hoffset : (farDiagnostic n).position.offset.toNat = n + 10 := by
    show (10 + UInt32.ofNat n).toNat = n + 10
    rw [UInt32.toNat_add, UInt32.toNat_ofNat']
    show (10 + n % 2 ^ 32) % 2 ^ 32 = n + 10
    omega
  have hfeed : '\n' ∉ (farFault n).toList := by
    rw [toList_farFault]
    simp
  have hfirst : (farFault n).toList = 'l' :: ("et x = 1;".toList ++ List.replicate n ' ' ++ ['@']) :=
    toList_farFault n
  rw [Diagnostic.caretFits_iff_of_not_mem hfirst (by decide) hfeed, hoffset]
  rw [hoffset, utf8ByteSize_farFault]
  omega

/-- If the caret does not fit then nothing is printed, because there is no other diagnostic in front
of this one. -/
theorem outcome_of_farFault {read : Option String → Except ReadError ByteArray}
    (hread : read none = .ok (farFault n).toUTF8) (hn : n < 2 ^ 31) (hwide : maxWidth < n + 11) :
    CommandLine.outcome read [] = ⟨101, "", ""⟩ := by
  have hfit : ¬ (farDiagnostic n).CaretFits (farFault n) := by
    rw [caretFits_farDiagnostic hn]
    exact Nat.not_le.2 hwide
  have hname : CommandLine.sourceName none = "stdin" := rfl
  have hfault : (parse (farFault n) (some "stdin")).2.toList = [] ++ farDiagnostic n :: [] :=
    (parse_farFault n).2
  rw [CommandLine.outcome_of_print rfl, hread,
    CommandLine.printInput_of_decode (CommandLine.decode_toUTF8 _), hname,
    CommandLine.printSource_of_not_caretFits hfault (List.forall_mem_nil _) hfit]
  rfl

end MonkeyLang
