import MonkeyLang.Text.Quoted
import MonkeyLang.Token.Basic

/-!
# Diagnostics

A diagnostic is a fault and the place where it was found. There are three faults: a token other
than the one that a statement needs, a token that starts no statement, and an integer that is no
numeral or does not fit its word. Each names the token at which it was found.
-/

namespace MonkeyLang

/-- A place in a named source; the offset counts octets, modulo 2^32. -/
structure Position where
  offset : UInt32
  file : String
deriving DecidableEq, Repr

/-- The position of what stands in no source. -/
def Position.null : Position :=
  ⟨0, "<null>"⟩

inductive Fault
  | unexpectedToken (expected : TokenKind) (found : Token)
  | unrecognisedStatement (found : Token)
  | invalidNumber (found : Token)
deriving DecidableEq, Repr

namespace Fault

def name : Fault → String
  | unexpectedToken .. => "UnexpectedToken"
  | unrecognisedStatement _ => "UnrecognisedStatement"
  | invalidNumber _ => "NumberParseError"

/-- The token at which the fault was found. -/
def found : Fault → Token
  | unexpectedToken _ found => found
  | unrecognisedStatement found => found
  | invalidNumber found => found

/-- The kind of token that would have been in place. -/
def expected? : Fault → Option TokenKind
  | unexpectedToken expected _ => some expected
  | unrecognisedStatement _ => none
  | invalidNumber _ => none

def message : Fault → String
  | unexpectedToken expected found =>
    "expected next token to be " ++ expected.name ++ ", got " ++ found.kind.name ++ " instead"
  | unrecognisedStatement found => "unrecognised statement starting with " ++ found.display
  | invalidNumber found => "error parsing number: " ++ Text.quote found.literal

/-- Advice on the fault; on an illegal character there is none to give. -/
def hint? : Fault → Option String
  | unexpectedToken expected found =>
    some ("expected next token to be `" ++ expected.name ++ "`, got `" ++ found.kind.name ++
      "` instead")
  | unrecognisedStatement found =>
    if found.kind = .illegal then none
    else some ("no statement starts with `" ++ found.literal ++ "`")
  | invalidNumber found =>
    some ("Invalid number: `" ++ found.literal ++ "`, is it above the integer limit?")

end Fault

structure Diagnostic where
  fault : Fault
  position : Position
deriving DecidableEq, Repr

/-- The fault on one line, with its place. -/
def Diagnostic.message (d : Diagnostic) : String :=
  d.fault.message ++ " at " ++ d.position.file ++ ":" ++ Nat.repr d.position.offset.toNat

end MonkeyLang
