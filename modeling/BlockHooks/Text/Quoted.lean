/-
BlockHooks/Text/Quoted.lean

Text quoted for messages.

A quoted text stands between double quotes.  Inside, a quote and a backslash
follow a backslash; tab, line feed, carriage return and the zero character
have escapes of one letter; any other control character is written as its
number in hexadecimal, without leading zeros, between braces.  Everything
else stands for itself.
-/

namespace BlockHooks

namespace Quoted

/-- The lowercase hexadecimal digits of `n`, without leading zeros. -/
def hexDigits (n : Nat) : List Char := Nat.toDigits 16 n

/-- The characters below the blank, the delete character and the thirty-two
after it. -/
def isControl (c : Char) : Bool :=
  c.toNat < 0x20 || (0x7f ≤ c.toNat && c.toNat < 0xa0)

/-- How one character is written inside quotes. -/
def escape (c : Char) : List Char :=
  if c = '"' then ['\\', '"']
  else if c = '\\' then ['\\', '\\']
  else if c = '\n' then ['\\', 'n']
  else if c = '\r' then ['\\', 'r']
  else if c = '\t' then ['\\', 't']
  else if c = Char.ofNat 0 then ['\\', '0']
  else if isControl c then ['\\', 'u', '{'] ++ hexDigits c.toNat ++ ['}']
  else [c]

end Quoted

/-- `s` between quotes, with escapes. -/
def quoted (s : String) : String :=
  String.ofList ('"' :: s.toList.flatMap Quoted.escape ++ ['"'])

/-- A list of texts, each quoted, between brackets. -/
def quotedList (ss : List String) : String :=
  "[" ++ String.intercalate ", " (ss.map quoted) ++ "]"

end BlockHooks
