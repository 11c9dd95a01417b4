import MonkeyLang.Node.Basic

/-!
# Printing syntax trees

An identifier prints as its value and an integer as its shortest numeral. A `let` statement
prints its word, its name and its value, which may be missing, and ends in a semicolon.
-/

namespace MonkeyLang

def Identifier.display (i : Identifier) : String :=
  i.value

def IntegerLiteral.display (i : IntegerLiteral) : String :=
  Text.ofInt64 i.value

/-- The printed form of a node. -/
def Node.display : Node → String
  | letStatement t name none => t.literal ++ " " ++ name.display ++ " = ;"
  | letStatement t name (some value) =>
    t.literal ++ " " ++ name.display ++ " = " ++ value.display ++ ";"
  | identifier i => i.display
  | integer i => i.display

end MonkeyLang
