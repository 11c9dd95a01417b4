import Mathlib.Data.Nat.Digits.Defs
import MonkeyLang.Diagnostic.Report
import MonkeyLang.Proofs.Text.Span

/-!
# The width of a report

Two fields of a quotation have a width that is worked out. The margin has that of the number of a
line, and an offset of 32 bits does not lead to lines with long numbers. So it is the column of the
caret alone that decides whether there is a report (`report?_of_caretFits`,
`report?_of_not_caretFits`).
-/

namespace MonkeyLang

open Text

namespace Text

theorem length_bar (number : String) : (bar number).length = number.length + 2 := by
  rw [bar, String.length_append, String.length_ofList, List.length_replicate]
  rfl

theorem length_caret (column : Nat) : (caret column).length = column + 1 := by
  rw [caret, String.length_append, String.length_ofList, List.length_replicate]
  rfl

/-- The caret stands in a column, counted from one, that is not too far to the right. -/
def Line.CaretFits (line : Line) : Prop :=
  line.caretColumn + 1 ≤ maxWidth

instance : DecidablePred Line.CaretFits := fun _ => inferInstanceAs (Decidable (_ ≤ _))

/-- A number of ten digits leaves the margin narrow. -/
theorem Line.fits_iff_caretFits {line : Line} (hnumber : line.number < 10 ^ 10) :
    line.Fits ↔ line.CaretFits := by
  have hmargin : (bar (Nat.repr line.number)).length ≤ maxWidth := by
    have hdigits := Nat.repr_length line.number 10 (by decide) hnumber
    rw [length_bar]
    exact Nat.le_trans (Nat.add_le_add_right hdigits 2) (by decide)
  rw [Line.Fits, length_caret]
  exact and_iff_right hmargin

end Text

namespace Diagnostic

/-- The caret that the report of a diagnostic would have is not too far to the right. -/
def CaretFits (d : Diagnostic) (source : String) : Prop :=
  ∀ line ∈ lineAt? source d.position.offset.toNat, line.CaretFits

instance (d : Diagnostic) (source : String) : Decidable (d.CaretFits source) :=
  inferInstanceAs (Decidable (∀ line ∈ lineAt? source d.position.offset.toNat, line.CaretFits))

variable {d : Diagnostic} {source : String}

theorem number_lt_of_mem_lineAt? {line : Line}
    (hline : line ∈ lineAt? source d.position.offset.toNat) : line.number < 10 ^ 10 := by
  have hoffset : d.position.offset.toNat < 2 ^ 32 := d.position.offset.toNat_lt
  have hfeeds : ((octets source).take d.position.offset.toNat).count '\n' ≤ _ :=
    List.count_le_length
  rw [List.length_take] at hfeeds
  rw [(Line.holds_of_lineAt?_eq_some hline).2.number]
  omega

theorem fits_iff_caretFits :
    (∀ line ∈ lineAt? source d.position.offset.toNat, line.Fits) ↔ d.CaretFits source :=
  forall₂_congr fun _ hline => Line.fits_iff_caretFits (number_lt_of_mem_lineAt? hline)

theorem report?_of_caretFits (h : d.CaretFits source) : d.report? source = some (d.report source) :=
  if_pos (fits_iff_caretFits.2 h)

theorem report?_of_not_caretFits (h : ¬ d.CaretFits source) : d.report? source = none :=
  if_neg (mt fits_iff_caretFits.1 h)

/-- On a text of one line without indentation the caret stands below the offset. -/
theorem caretFits_iff_of_not_mem {c : Char} {cs : List Char} (hsource : source.toList = c :: cs)
    (hindent : ¬ isIndent c) (hfeed : '\n' ∉ source.toList)
    (hoffset : d.position.offset.toNat ≤ source.utf8ByteSize) :
    d.CaretFits source ↔ d.position.offset.toNat + 1 ≤ maxWidth := by
  have hline : lineAt? source d.position.offset.toNat =
      some ⟨1, source, d.position.offset.toNat⟩ := by
    have hwidth := width_flatten_lines source
    rw [flatten_lines] at hwidth
    rw [lineAt?, lines_of_not_mem hfeed, locate, if_pos (by rwa [hwidth]), String.ofList_toList]
  have hcolumn : Line.caretColumn ⟨1, source, d.position.offset.toNat⟩ =
      d.position.offset.toNat := by
    have hunindented : source.toList.dropWhile isIndent = source.toList := by
      rw [hsource, List.dropWhile_cons_of_neg hindent]
    rw [Line.caretColumn, Line.unindented, hunindented, String.length_toList, Nat.sub_self,
      Nat.sub_zero]
  rw [CaretFits, hline]
  simp only [Option.mem_some_iff, forall_eq']
  rw [Line.CaretFits, hcolumn]

end Diagnostic

end MonkeyLang
