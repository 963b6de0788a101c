import ShardFleet.Text.Printable

/-!
Strings in double quotes, as messages show them.

A quote and a backslash take a backslash, tab, line feed, carriage return and the zero
character have a letter each, other characters that are not printable are written by code
point. An apostrophe stays as it is.
-/

namespace ShardFleet.Text

/-- The characters that stand for `c` between double quotes. -/
def quotedChar (c : Char) : List Char :=
  if c = '"' then ['\\', '"']
  else if c = '\\' then ['\\', '\\']
  else if c = '\n' then ['\\', 'n']
  else if c = '\r' then ['\\', 'r']
  else if c = '\t' then ['\\', 't']
  else if c = '\x00' then ['\\', '0']
  else if isPrintable c then [c]
  else ['\\', 'u', '\x7b'] ++ Nat.toDigits 16 c.toNat ++ ['\x7d']

/-- `s` in double quotes. -/
def quoted (s : String) : String := String.ofList (['"'] ++ s.toList.flatMap quotedChar ++ ['"'])

end ShardFleet.Text
