/-
BlockHooks/Decimal/Text.lean

Decimals as text.

A decimal is written as its whole units, a point and exactly eighteen
fractional digits.  Read back are digits with an optional point: at least
one digit in all, at most eighteen after the point, and at least one there
if the point is written.  There is no sign and no exponent, and leading
zeros are allowed.

`Dec.parse` looks at the text in a fixed order, so that each refusal has one
reason: a point followed by nothing, no digit at all, a character that is no
digit, a fraction that is too long; only then can the number be too large.
-/
import BlockHooks.Decimal.Basic
import BlockHooks.Text.Quoted

namespace BlockHooks

/-! ### Digits -/

/-- The number of digits of a decimal fraction. -/
def Dec.places : Nat := 18

/-- The decimal digits of `n`, without leading zeros. -/
def digits (n : Nat) : List Char := Nat.toDigits 10 n

/-- The number that a list of decimal digits writes. -/
def ofDigits (cs : List Char) : Nat := Nat.ofDigitChars 10 cs 0

/-- The decimal digits of `n`, filled up with zeros on the left to `width`. -/
def paddedDigits (width n : Nat) : List Char :=
  List.replicate (width - (digits n).length) '0' ++ digits n

@[simp] theorem ofDigits_digits (n : Nat) : ofDigits (digits n) = n :=
  Nat.ofDigitChars_ten_toDigits

/-! ### Splitting at a character -/

/-- The parts of `cs` before and after the first `c`, if there is one. -/
def splitAtFirst (c : Char) : List Char → Option (List Char × List Char)
  | [] => none
  | x :: xs =>
    if x = c then some ([], xs)
    else (splitAtFirst c xs).map fun (before, after) => (x :: before, after)

theorem splitAtFirst_eq_some_iff {c : Char} {cs before after : List Char} :
    splitAtFirst c cs = some (before, after) ↔
      cs = before ++ c :: after ∧ c ∉ before := by
  -- an element in front of the first `c` makes `before` longer and nothing else
  induction cs generalizing before after with
  | nil => simp [splitAtFirst]
  | cons x xs ih =>
    unfold splitAtFirst
    split
    next h =>
      subst h
      constructor
      · intro h
        cases h
        simp
      · rintro ⟨h, hc⟩
        cases before with
        | nil => simp_all
        | cons b bs =>
          simp only [List.cons_append, List.cons.injEq] at h
          exact absurd (h.1 ▸ List.mem_cons_self) hc
    next h =>
      cases before with
      | nil =>
        simp only [Option.map_eq_some_iff, Prod.mk.injEq, Prod.exists, List.nil_append,
          List.cons.injEq, List.not_mem_nil, not_false_eq_true, and_true]
        constructor
        · rintro ⟨a, b, -, h', -⟩
          cases h'
        · rintro ⟨h', -⟩
          exact absurd h' h
      | cons b bs =>
        simp only [Option.map_eq_some_iff, Prod.mk.injEq, Prod.exists, List.cons.injEq,
          List.cons_append, List.mem_cons, not_or]
        constructor
        · rintro ⟨a, d, h', ⟨rfl, rfl⟩, rfl⟩
          have := ih.1 h'
          exact ⟨⟨rfl, this.1⟩, fun h'' => h h''.symm, this.2⟩
        · rintro ⟨⟨rfl, h'⟩, -, hc⟩
          exact ⟨bs, after, ih.2 ⟨h', hc⟩, ⟨rfl, rfl⟩, rfl⟩

theorem splitAtFirst_eq_none_iff {c : Char} {cs : List Char} :
    splitAtFirst c cs = none ↔ c ∉ cs := by
  induction cs with
  | nil => simp [splitAtFirst]
  | cons x xs ih =>
    unfold splitAtFirst
    split
    next h => simp [h]
    next h =>
      simp only [Option.map_eq_none_iff, ih, List.mem_cons, not_or]
      exact ⟨fun h' => ⟨fun h'' => h h''.symm, h'⟩, fun h' => h'.2⟩

namespace Dec

/-! ### Writing -/

/-- Whole units, a point, eighteen digits. -/
def chars (a : Dec) : List Char :=
  digits a.whole ++ '.' :: paddedDigits places a.fraction.raw

/-- The text of a decimal, with all eighteen digits behind the point. -/
def text (a : Dec) : String := String.ofList a.chars

instance : ToString Dec := ⟨text⟩

/-! ### Reading -/

/-- The value of the digits `whole` before and `frac` after the point. -/
def valueOf (whole frac : List Char) : Nat :=
  ofDigits whole * scale + ofDigits frac * Nat.pow 10 (places - frac.length)

/-- Reads the digits before and after the point. -/
def ofParts (input : String) (whole frac : List Char) : Except DecimalError Dec :=
  if whole = [] ∧ frac = [] then .error (.invalidDecimal input .empty)
  else if !(whole ++ frac).all Char.isDigit then .error (.invalidDecimal input .nonDigit)
  else if places < frac.length then .error (.invalidDecimal input .longFraction)
  else ofRaw? (valueOf whole frac)

/-- Reads a decimal. -/
def parse (input : String) : Except DecimalError Dec :=
  match splitAtFirst '.' input.toList with
  | some (_, []) => .error (.invalidDecimal input .missingFraction)
  | some (whole, frac) => ofParts input whole frac
  | none => ofParts input input.toList []

end Dec

/-! ### Wording -/

/-- How it is told why a text is not a decimal. -/
def Malformed.message : Malformed → String
  | .missingFraction => "missing fractional digits"
  | .empty => "empty string"
  | .nonDigit => "non-digit character"
  | .longFraction => "more than 18 fractional digits"

/-- How an error of arithmetic or of reading is told. -/
def DecimalError.message : DecimalError → String
  | .overflow => "Decimal arithmetic overflow"
  | .negativeResult => "Decimal arithmetic underflow: result would be negative"
  | .divisionByZero => "Division by zero"
  | .invalidDecimal input reason =>
    "Invalid decimal " ++ quoted input ++ ": " ++ reason.message

end BlockHooks
