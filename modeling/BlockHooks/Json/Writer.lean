/-
BlockHooks/Json/Writer.lean

Writing values as compact JSON text.

Nothing stands between the parts of a value.  The fields of a record come in
the order in which it declares them.  In a string a quote, a backslash and
the control characters below the blank are escaped, five of those by one
letter and the others by four hexadecimal digits.
-/
import BlockHooks.Decimal.Text
import BlockHooks.Address

namespace BlockHooks

namespace Json

/-- Types whose values can be written as JSON. -/
class Writable (α : Type) where
  chars : α → List Char

/-- The compact JSON text of a value. -/
def text {α : Type} [Writable α] (a : α) : String := String.ofList (Writable.chars a)

/-- How one character is written in a string. -/
def escaped (c : Char) : List Char :=
  if c = '"' then ['\\', '"']
  else if c = '\\' then ['\\', '\\']
  else if c = '\x08' then ['\\', 'b']
  else if c = '\x0c' then ['\\', 'f']
  else if c = '\n' then ['\\', 'n']
  else if c = '\r' then ['\\', 'r']
  else if c = '\t' then ['\\', 't']
  else if c < ' ' then
    ['\\', 'u', '0', '0', Nat.digitChar (c.toNat / 16), Nat.digitChar (c.toNat % 16)]
  else [c]

/-- A text between quotes. -/
def stringChars (s : String) : List Char := '"' :: s.toList.flatMap escaped ++ ['"']

/-- Texts with commas between them. -/
def commaSeparated : List (List Char) → List Char
  | [] => []
  | [x] => x
  | x :: y :: rest => x ++ ',' :: commaSeparated (y :: rest)

/-- An array, of elements as they are written. -/
def arrayChars (elements : List (List Char)) : List Char :=
  '[' :: commaSeparated elements ++ [']']

/-- A field with its key. -/
def member (key : String) {α : Type} [Writable α] (a : α) : List Char :=
  stringChars key ++ ':' :: Writable.chars a

/-- An object, of members as they are written. -/
def objectChars (members : List (List Char)) : List Char :=
  '{' :: commaSeparated members ++ ['}']

instance : Writable String := ⟨stringChars⟩

instance : Writable UInt64 := ⟨fun n => digits n.toNat⟩

instance : Writable UInt32 := ⟨fun n => digits n.toNat⟩

instance : Writable Int64 where
  chars n := if n.toInt < 0 then '-' :: digits n.toInt.natAbs else digits n.toInt.natAbs

instance {α : Type} [Writable α] : Writable (Option α) where
  chars
    | none => ['n', 'u', 'l', 'l']
    | some a => Writable.chars a

instance {α : Type} [Writable α] : Writable (List α) where
  chars as := arrayChars (as.map Writable.chars)

/-- A decimal is written as a string, so that no reader takes it for a
floating point number. -/
instance : Writable Dec := ⟨fun d => stringChars d.text⟩

instance : Writable Address := ⟨fun a => stringChars a.text⟩

end Json

end BlockHooks
