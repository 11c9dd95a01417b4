/-!
# Decimal numerals

A numeral is one optional sign, `+` or `-`, and at least one ASCII digit, and nothing else. It
may have any length and any number of leading zeros. `int64?` reads a numeral digit by digit into a
signed 64-bit word, downwards from zero behind a `-` because the lowest word is no word without its
sign. It refuses the numeral as soon as the digits read so far have no word, instead of wrapping.
-/

namespace MonkeyLang.Text

/-- The digit that a character stands for. -/
def digit? (c : Char) : Option Int64 :=
  if c.isDigit then some (Int64.ofNat (c.toNat - '0'.toNat)) else none

/-- The result of an operation on words, unless the operation overflows. -/
def unlessOverflow (overflow : Bool) (result : Int64) : Option Int64 :=
  if overflow then none else some result

/-- Puts one more digit behind those of a word, on the side of zero where the numeral is. -/
def appendDigit? (negative : Bool) (word : Int64) (c : Char) : Option Int64 := do
  let digit ← digit? c
  let tens ← unlessOverflow (word.toBitVec.smulOverflow (10 : Int64).toBitVec) (word * 10)
  if negative then
    unlessOverflow (tens.toBitVec.ssubOverflow digit.toBitVec) (tens - digit)
  else
    unlessOverflow (tens.toBitVec.saddOverflow digit.toBitVec) (tens + digit)

/-- The word of a run of digits; a run has at least one. -/
def digits? (negative : Bool) (cs : List Char) : Option Int64 :=
  if cs = [] then none else cs.foldlM (appendDigit? negative) 0

/-- The word of a numeral, from -9223372036854775808 to 9223372036854775807. -/
def int64? (s : String) : Option Int64 :=
  match s.toList with
  | '+' :: cs => digits? false cs
  | '-' :: cs => digits? true cs
  | cs => digits? false cs

/-- The shortest numeral of a word: no leading zero, and a sign only when it is negative. -/
def ofInt64 (n : Int64) : String :=
  if n.toInt < 0 then "-" ++ Nat.repr n.toInt.natAbs else Nat.repr n.toInt.natAbs

end MonkeyLang.Text
