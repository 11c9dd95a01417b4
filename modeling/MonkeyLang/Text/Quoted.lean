import MonkeyLang.Text.Printable

/-!
# Quoted texts

A text inside double quotes in which every character that would end the quotation, or that
cannot be seen, is written as an escape: `\"`, `\\`, `\n`, `\r`, `\t` and `\0` by name, the other
characters that are not printable by their number, as in `\u{200b}`.
-/

namespace MonkeyLang.Text

/-- One character as it stands in a quoted text. -/
def escape (c : Char) : List Char :=
  if c = '"' then ['\\', '"']
  else if c = '\\' then ['\\', '\\']
  else if c = '\n' then ['\\', 'n']
  else if c = '\r' then ['\\', 'r']
  else if c = '\t' then ['\\', 't']
  else if c = '\x00' then ['\\', '0']
  else if isPrintable c then [c]
  else ['\\', 'u', '{'] ++ Nat.toDigits 16 c.toNat ++ ['}']

/-- A text in double quotes, with its escapes. -/
def quote (s : String) : String :=
  String.ofList ('"' :: s.toList.flatMap escape ++ ['"'])

end MonkeyLang.Text
