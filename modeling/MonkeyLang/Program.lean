import MonkeyLang.Node.Printer

/-!
# Programs

A program is a list of statements in source order. Their printed forms follow one another without
a separator.
-/

namespace MonkeyLang

structure Program where
  statements : List Node
deriving DecidableEq, Repr

namespace Program

def empty : Program :=
  ⟨[]⟩

/-- Adds a statement at the end. -/
def push (p : Program) (n : Node) : Program :=
  ⟨p.statements ++ [n]⟩

def size (p : Program) : Nat :=
  p.statements.length

def isEmpty (p : Program) : Bool :=
  p.statements.isEmpty

/-- The printed form of a program. -/
def display (p : Program) : String :=
  String.join (p.statements.map Node.display)

/-- The literal of the first token; an empty program has none. -/
def tokenLiteral (p : Program) : String :=
  (p.statements.head?.map fun n => n.token.literal).getD ""

end Program

end MonkeyLang
