import MonkeyLang.Diagnostic.Report
import MonkeyLang.Parser.Recovery

/-!
# The command line

`monkey [--tokens] [FILE]` parses one source text, from a file or from standard input. It prints
the program on standard output and a report of each diagnostic on standard error; with `--tokens`
it prints the tokens instead, one on a line. The exit code is 0 if all went well, 1 if the source
could not be read or has a diagnostic, and 2 if the arguments make no sense.

The reports are printed before the program. A diagnostic that has no report breaks the run off with
exit code 101, and then there is nothing on standard output.

Reading the source is left to the caller, as a function from a path, or from `none` for standard
input, to bytes. The arguments are texts.
-/

namespace MonkeyLang

/-- What is printed of a source text. -/
inductive Mode
  | program
  | tokens
deriving DecidableEq, Repr

/-- What the arguments ask for. -/
inductive Command
  | help
  | misuse
  | print (mode : Mode) (path : Option String)
deriving DecidableEq, Repr

namespace Command

/-- Reads the remaining arguments; the first that asks for help or makes no sense decides. -/
def ofArgsFrom (mode : Mode) (path : Option String) : List String → Command
  | [] => print mode path
  | arg :: args =>
    if arg = "--tokens" then ofArgsFrom .tokens path args
    else if arg = "-h" ∨ arg = "--help" then help
    else if path = none ∧ arg.toList.head? ≠ some '-' then ofArgsFrom mode (some arg) args
    else misuse

/-- The command that a list of arguments gives. -/
def ofArgs (args : List String) : Command :=
  ofArgsFrom .program none args

end Command

/-- Why a source text could not be read. -/
inductive ReadError
  | system (description : String) (code : Nat)
  | invalidUtf8
deriving DecidableEq, Repr

def ReadError.message : ReadError → String
  | system description code => description ++ " (os error " ++ Nat.repr code ++ ")"
  | invalidUtf8 => "stream did not contain valid UTF-8"

/-- What a run of the program leaves behind. Of a run that is broken off, what it has written itself:
the notice of the break on standard error is not part of it. -/
structure Outcome where
  exitCode : UInt8
  stdout : String
  stderr : String
deriving DecidableEq, Repr

namespace CommandLine

def usage : String :=
  "usage: monkey [--tokens] [FILE]\n"

/-- The part of a path behind its last slash. -/
def fileName (path : String) : String :=
  String.ofList (path.toList.reverse.takeWhile (· ≠ '/')).reverse

/-- The name under which a source text is reported. -/
def sourceName : Option String → String
  | none => "stdin"
  | some path => fileName path

/-- The source text that was read. -/
def decode (input : Except ReadError ByteArray) : Except ReadError String :=
  match input with
  | .error e => .error e
  | .ok bytes =>
    match String.fromUTF8? bytes with
    | none => .error .invalidUtf8
    | some source => .ok source

/-- Prints the report of a diagnostic behind what has been printed. Without a report, that is an
error. -/
def printReport (source printed : String) (d : Diagnostic) : Except String String :=
  match d.report? source with
  | none => .error printed
  | some report => .ok (printed ++ report)

/-- Prints the reports of diagnostics in order, up to the first that there is none of. -/
def printReports (source : String) (ds : List Diagnostic) : Except String String :=
  ds.foldlM (printReport source) ""

/-- The outcome of printing a source text. -/
def printSource (mode : Mode) (name source : String) : Outcome :=
  match mode with
  | .tokens =>
    ⟨0, String.join ((tokenize source (some name)).map fun t => t.display ++ "\n"), ""⟩
  | .program =>
    let result := parse source (some name)
    match printReports source result.2.toList with
    | .error printed => ⟨101, "", printed⟩
    | .ok printed => ⟨if result.2.isEmpty then 0 else 1, result.1.display ++ "\n", printed⟩

/-- The outcome of printing what was read from a path. -/
def printInput (mode : Mode) (path : Option String) (input : Except ReadError ByteArray) :
    Outcome :=
  match decode input with
  | .error e => ⟨1, "", "Failed to read input: " ++ e.message ++ "\n"⟩
  | .ok source => printSource mode (sourceName path) source

/-- Runs the program. The source is read only if the arguments ask for it. -/
def run {m : Type → Type} [Monad m] (read : Option String → m (Except ReadError ByteArray))
    (args : List String) : m Outcome :=
  match Command.ofArgs args with
  | .help => pure ⟨0, usage, ""⟩
  | .misuse => pure ⟨2, "", usage⟩
  | .print mode path => do return printInput mode path (← read path)

end CommandLine

end MonkeyLang
