/-
BlockHooks/Text/Hex.lean

Bytes as pairs of lowercase hexadecimal digits.
-/
import BlockHooks.Text.Utf8

namespace BlockHooks

namespace Hex

/-- The digit for a number below sixteen. -/
def digit (n : Nat) : Char := Nat.digitChar n

/-- Two digits for one byte, the high one first. -/
def byte (b : UInt8) : List Char := [digit (b.toNat / 16), digit (b.toNat % 16)]

/-- The number a digit stands for, in either case. -/
def value? (c : Char) : Option Nat :=
  if '0' ≤ c && c ≤ '9' then some (c.toNat - '0'.toNat)
  else if 'a' ≤ c && c ≤ 'f' then some (c.toNat - 'a'.toNat + 10)
  else if 'A' ≤ c && c ≤ 'F' then some (c.toNat - 'A'.toNat + 10)
  else none

/-- Reads pairs of digits. -/
def bytes? : List Char → Option Bytes
  | [] => some []
  | [_] => none
  | a :: b :: rest => do
    let high ← value? a
    let low ← value? b
    let more ← bytes? rest
    return UInt8.ofNat (16 * high + low) :: more

end Hex

/-- Two lowercase hexadecimal digits for each byte. -/
def hexChars (bs : Bytes) : List Char := bs.flatMap Hex.byte

/-- `hexChars` as a text. -/
def hexText (bs : Bytes) : String := String.ofList (hexChars bs)

end BlockHooks
