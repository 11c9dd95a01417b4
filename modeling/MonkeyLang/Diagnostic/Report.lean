import MonkeyLang.Diagnostic.Basic
import MonkeyLang.Text.Blank
import MonkeyLang.Text.Line

/-!
# Reports

The report of a diagnostic names the fault and the file, and where the position lies in the
source it quotes the line with a caret below the offending column:

```text
Error: UnexpectedToken (expected next token to be `=`, got `;` instead)
-> totals.mk
   |
12 | let sum;
   | -------^
```

The line is quoted without its indentation, and the caret moves left with it, but never past the
first column. The margin in front of the bar is a field of a width that is worked out, and so is the
rule of dashes with the caret. Fields have a greatest width: a diagnostic whose caret would stand
further right has no report (`report?`).
-/

namespace MonkeyLang

open Text

namespace Text

/-- A bar after as many spaces as put it below the bar behind the given line number. -/
def bar (number : String) : String :=
  String.ofList (List.replicate (number.length + 1) ' ') ++ "|"

/-- A caret below the column with the given number, counted from zero, after a rule of dashes. -/
def caret (column : Nat) : String :=
  String.ofList (List.replicate column '-') ++ "^"

/-- The greatest width of a field, in characters. -/
def maxWidth : Nat := 65535

namespace Line

/-- The characters of a line behind its indentation. -/
def unindented (line : Line) : List Char :=
  line.text.toList.dropWhile isIndent

/-- The part of a line that is quoted. -/
def quoted (line : Line) : List Char :=
  dropTrailingSpace line.unindented

/-- The column of the caret below the quoted part of a line, counted from zero. -/
def caretColumn (line : Line) : Nat :=
  line.column - (line.text.length - line.unindented.length)

/-- The quotation of a line, with a caret below its column. -/
def quotation (line : Line) : List String :=
  let number := Nat.repr line.number
  [bar number,
   number ++ " | " ++ String.ofList line.quoted,
   bar number ++ " " ++ caret line.caretColumn]

/-- The margin and the rule with the caret, the two fields of a quotation, are not too wide. -/
def Fits (line : Line) : Prop :=
  (bar (Nat.repr line.number)).length ≤ maxWidth ∧ (caret line.caretColumn).length ≤ maxWidth

instance : DecidablePred Fits := fun _ => inferInstanceAs (Decidable (_ ∧ _))

end Line

end Text

namespace Diagnostic

/-- The fault by name, with the advice on it in parentheses. -/
def headline (d : Diagnostic) : String :=
  match d.fault.hint? with
  | none => "Error: " ++ d.fault.name
  | some hint => "Error: " ++ d.fault.name ++ " (" ++ hint ++ ")"

/-- The lines of the report of a diagnostic on a source text. -/
def reportLines (d : Diagnostic) (source : String) : List String :=
  d.headline :: ("-> " ++ d.position.file) ::
    ((lineAt? source d.position.offset.toNat).map Line.quotation).getD []

/-- The text of the report of a diagnostic on a source text, of any width; each of its lines ends in
a line feed. -/
def report (d : Diagnostic) (source : String) : String :=
  String.join ((d.reportLines source).map (· ++ "\n"))

/-- The report of a diagnostic on a source text. There is none where the quotation does not fit:
making it breaks the program off. -/
def report? (d : Diagnostic) (source : String) : Option String :=
  if ∀ line ∈ lineAt? source d.position.offset.toNat, line.Fits then some (d.report source)
  else none

end Diagnostic

end MonkeyLang
