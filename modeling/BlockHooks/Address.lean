/-
BlockHooks/Address.lean

Account addresses.

An address is a text `p1d`: a nonempty lowercase alphanumeric first part `p`
without the digit `1`, that digit, and a nonempty lowercase alphanumeric
data part, which may contain further ones.  The first `1` is therefore the
separator, and an address has at most one first part.

A value of type `Address` is any text; `validate` decides whether it has
that form, and tells the first thing wrong with it: nothing there, a
character outside the alphabet, no usable separator.

Accounts of modules are derived: `mod1` and the hexadecimal text of the
first twenty bytes of the SHA-256 digest of the module's name.
-/
import BlockHooks.Decimal.Text
import BlockHooks.Hash.Sha256
import BlockHooks.Text.Hex

namespace BlockHooks

/-- The address of an account: any text, whether or not it has the form of one. -/
structure Address where
  text : String
  deriving DecidableEq, Repr, Inhabited

/-- Why a text is not an address, or not one with the first part asked for. -/
inductive AddressError where
  | empty
  | missingSeparator (address : String)
  | invalidCharacter (address : String)
  | wrongPrefix (address expected : String)
  deriving DecidableEq, Repr

/-- How the error is told, with the address quoted as it was given. -/
def AddressError.message : AddressError → String
  | .empty => "empty address"
  | .missingSeparator a =>
    "address " ++ quoted a ++ " has no '1' separator between prefix and data"
  | .invalidCharacter a => "address " ++ quoted a ++ " contains characters outside [a-z0-9]"
  | .wrongPrefix a expected =>
    "address " ++ quoted a ++ " does not carry the " ++ quoted expected ++ " prefix"

namespace Address

/-! ### Order -/

/-- Addresses are ordered as their texts are. -/
protected def compare (a b : Address) : Ordering := compare a.text b.text

instance : Ord Address := ⟨Address.compare⟩

instance : Std.TransOrd Address where
  eq_swap := @fun a b => Std.OrientedOrd.eq_swap (a := a.text) (b := b.text)
  isLE_trans := @fun a b c => Std.TransOrd.isLE_trans (a := a.text) (b := b.text) (c := c.text)

instance : Std.LawfulEqOrd Address where
  compare_self := @fun a => Std.ReflOrd.compare_self (a := a.text)
  eq_of_compare := @fun a b h => by
    cases a; cases b
    exact congrArg Address.mk (Std.LawfulEqOrd.eq_of_compare h)

/-! ### Derived addresses -/

/-- The number of digest bytes in a module's address. -/
def moduleBytes : Nat := 20

/-- The first part of every module's address. -/
def moduleTag : String := "mod"

/-- The address of the account of a module. -/
def ofModule (name : String) : Address :=
  ⟨moduleTag ++ "1" ++ hexText ((sha256 (utf8 name)).take moduleBytes)⟩

/-! ### Form -/

/-- A lowercase letter or a digit. -/
def isAddressChar (c : Char) : Bool :=
  ('a' ≤ c && c ≤ 'z') || ('0' ≤ c && c ≤ '9')

/-- The part before the first `1`, if there is a `1` and the part is not empty. -/
def firstPart (a : Address) : Option String :=
  match splitAtFirst '1' a.text.toList with
  | some ([], _) => none
  | some (before, _) => some (String.ofList before)
  | none => none

/-- Tells whether the text has the form of an address. -/
def validate (a : Address) : Except AddressError Unit :=
  if a.text.isEmpty then .error .empty
  else if !a.text.toList.all isAddressChar then .error (.invalidCharacter a.text)
  else
    match splitAtFirst '1' a.text.toList with
    | some (_ :: _, _ :: _) => .ok ()
    | _ => .error (.missingSeparator a.text)

/-- `validate`, and the first part must be `expected`. -/
def validateWithPrefix (a : Address) (expected : String) : Except AddressError Unit := do
  a.validate
  if a.firstPart = some expected then .ok ()
  else .error (.wrongPrefix a.text expected)

end Address

end BlockHooks
