import MonkeyLang.Diagnostic.Basic
import MonkeyLang.Text.Numeral

/-!
# Syntax trees

The nodes of a program: `let` statements, identifiers and integers. Each keeps the token it was
made from. A `let` statement may carry a value, itself a node; the statements that the parser
makes carry none.
-/

namespace MonkeyLang

structure Identifier where
  token : Token
  value : String
deriving DecidableEq, Repr

/-- The identifier that a token names. -/
def Identifier.ofToken (t : Token) : Identifier :=
  ⟨t, t.literal⟩

structure IntegerLiteral where
  token : Token
  value : Int64
deriving DecidableEq, Repr

/-- The integer that the literal of a token denotes, or the fault that it denotes none. The token is
meant to be a number, but only its literal counts: no other kind is refused. -/
def IntegerLiteral.ofToken (t : Token) (position : Position) :
    Except Diagnostic IntegerLiteral :=
  match Text.int64? t.literal with
  | some value => .ok ⟨t, value⟩
  | none => .error ⟨.invalidNumber t, position⟩

inductive Node
  | letStatement (token : Token) (name : Identifier) (value : Option Node)
  | identifier (i : Identifier)
  | integer (i : IntegerLiteral)
deriving Repr

namespace Node

/-- The token that a node was made from. -/
def token : Node → Token
  | letStatement t _ _ => t
  | identifier i => i.token
  | integer i => i.token

/-- Gives a `let` statement a value in place of any it has; other nodes have no value to give. -/
def withValue (n value : Node) : Node :=
  match n with
  | letStatement t name _ => letStatement t name (some value)
  | identifier _ => n
  | integer _ => n

def decEq : (a b : Node) → Decidable (a = b)
  | letStatement t n v, letStatement t' n' v' =>
    if hhead : t = t' ∧ n = n' then
      match v, v' with
      | none, none => isTrue (by rw [hhead.1, hhead.2])
      | some w, some w' =>
        match decEq w w' with
        | isTrue hvalue => isTrue (by rw [hhead.1, hhead.2, hvalue])
        | isFalse hvalue => isFalse fun h => hvalue (by injection h; simp_all)
      | none, some _ => isFalse fun h => by injection h; contradiction
      | some _, none => isFalse fun h => by injection h; contradiction
    else
      isFalse fun h => hhead (by injection h; simp_all)
  | identifier i, identifier j => decidable_of_iff (i = j) (by simp)
  | integer i, integer j => decidable_of_iff (i = j) (by simp)
  | letStatement .., identifier _ => isFalse nofun
  | letStatement .., integer _ => isFalse nofun
  | identifier _, letStatement .. => isFalse nofun
  | identifier _, integer _ => isFalse nofun
  | integer _, letStatement .. => isFalse nofun
  | integer _, identifier _ => isFalse nofun

instance : DecidableEq Node := decEq

end Node

end MonkeyLang
