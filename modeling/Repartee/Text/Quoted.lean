/-
  Repartee.Text.Quoted — a text between double quotes, as a report shows captures.

  A quote and a backslash are escaped by a backslash; tab, line feed, carriage return and the
  zero character have their letters; any other hidden character is written by its number.
-/

import Repartee.Unicode.Printable

namespace Repartee.Text

def hexDigits (n : Nat) : String := .ofList (Nat.toDigits 16 n)

def quotedChar (c : Char) : String :=
  if c = '"' then "\\\""
  else if c = '\\' then "\\\\"
  else if c = '\t' then "\\t"
  else if c = '\n' then "\\n"
  else if c = '\r' then "\\r"
  else if c = '\x00' then "\\0"
  else if Unicode.isHidden c then "\\u\x7b" ++ hexDigits c.toNat ++ "\x7d"
  else c.toString

def quoted (s : String) : String := "\"" ++ String.join (s.toList.map quotedChar) ++ "\""

/-- Quoted texts in square brackets. -/
def quotedList (ss : List String) : String := "[" ++ ", ".intercalate (ss.map quoted) ++ "]"

end Repartee.Text
