/-
BlockHooks/Decimal/Basic.lean

Unsigned decimals with eighteen fractional digits.

A `Dec` is a count of units of 10⁻¹⁸ below 2¹²⁸.  There are no negative
values: a subtraction that would go below zero is an error, which is what
keeps an accumulator of dust nonnegative.  Products and quotients are formed
without loss and rounded once, half to even (`divHalfEven`); a result of
2¹²⁸ units or more is an overflow, whether the rounding caused it or not.
-/
import BlockHooks.Decimal.Rounding

namespace BlockHooks

/-- The raw value of one whole unit. -/
def Dec.scale : Nat := 1000000000000000000

/-- The number of raw values, 2¹²⁸. -/
def Dec.bound : Nat := 340282366920938463463374607431768211456

/-- A decimal `raw / 10¹⁸`. -/
structure Dec where
  /-- The value in units of 10⁻¹⁸. -/
  raw : Nat
  raw_lt : raw < Dec.bound
  deriving DecidableEq

/-- What is wrong with a text that is no decimal. -/
inductive Malformed where
  /-- A point is followed by nothing. -/
  | missingFraction
  /-- There is no character at all. -/
  | empty
  /-- Some character is neither a digit nor the first point. -/
  | nonDigit
  /-- The fraction is longer than eighteen digits. -/
  | longFraction
  deriving DecidableEq, Repr

/-- Why a decimal operation has no result. -/
inductive DecimalError where
  | overflow
  | negativeResult
  | divisionByZero
  | invalidDecimal (input : String) (reason : Malformed)
  deriving DecidableEq, Repr

namespace Dec

@[ext] theorem ext {a b : Dec} (h : a.raw = b.raw) : a = b := by
  cases a; cases b; cases h; rfl

theorem scale_pos : 0 < scale := by decide

theorem bound_eq : bound = Nat.pow 2 128 := by decide

/-! ### Values -/

/-- Nothing. -/
def zero : Dec := ⟨0, by decide⟩

/-- One whole unit. -/
def one : Dec := ⟨scale, by decide⟩

instance : Inhabited Dec := ⟨zero⟩

/-- The decimal with the given raw value, if it fits. -/
def ofRaw? (n : Nat) : Except DecimalError Dec :=
  if h : n < bound then .ok ⟨n, h⟩ else .error .overflow

/-- A whole number of units; it always fits, as 2⁶⁴ · 10¹⁸ < 2¹²⁸. -/
def ofUnits (n : UInt64) : Dec :=
  ⟨n.toNat * scale, by
    have h := n.toNat_lt_size
    simp only [scale, bound, UInt64.size] at h ⊢
    omega⟩

theorem ofRaw?_of_lt {n : Nat} (h : n < bound) : ofRaw? n = .ok ⟨n, h⟩ :=
  dif_pos h

theorem ofRaw?_eq_ok_iff {n : Nat} {d : Dec} : ofRaw? n = .ok d ↔ d.raw = n := by
  constructor
  · intro h
    unfold ofRaw? at h
    split at h
    · cases h; rfl
    · cases h
  · intro h
    subst h
    exact ofRaw?_of_lt d.raw_lt

theorem ofRaw?_eq_error_iff {n : Nat} {e : DecimalError} :
    ofRaw? n = .error e ↔ bound ≤ n ∧ e = .overflow := by
  unfold ofRaw?
  split
  · constructor
    · intro h; cases h
    · rintro ⟨h, -⟩; omega
  · constructor
    · intro h; cases h; exact ⟨by omega, rfl⟩
    · rintro ⟨-, rfl⟩; rfl

/-! ### Order -/

/-- Compares by raw value. -/
protected def compare (a b : Dec) : Ordering := compare a.raw b.raw

instance : Ord Dec := ⟨Dec.compare⟩

/-- Tells whether a decimal is zero. -/
def isZero (a : Dec) : Bool := a.raw == 0

/-! ### Arithmetic -/

/-- `a + b`, exactly, if it fits. -/
def add (a b : Dec) : Except DecimalError Dec := ofRaw? (a.raw + b.raw)

/-- `a - b`, refused where it would be negative. -/
def sub (a b : Dec) : Except DecimalError Dec :=
  if b.raw ≤ a.raw then .ok ⟨a.raw - b.raw, Nat.lt_of_le_of_lt (Nat.sub_le ..) a.raw_lt⟩
  else .error .negativeResult

/-- `a · b`, rounded once at the last digit. -/
def mul (a b : Dec) : Except DecimalError Dec :=
  ofRaw? (divHalfEven (a.raw * b.raw) scale)

/-- `a · n`, exactly. -/
def mulUnits (a : Dec) (n : UInt64) : Except DecimalError Dec := ofRaw? (a.raw * n.toNat)

/-- `a / b`, rounded once at the last digit. -/
def quo (a b : Dec) : Except DecimalError Dec :=
  if b.raw = 0 then .error .divisionByZero
  else ofRaw? (divHalfEven (a.raw * scale) b.raw)

/-- `a / n`, rounded once at the last digit. -/
def quoUnits (a : Dec) (n : UInt64) : Except DecimalError Dec :=
  if n = 0 then .error .divisionByZero
  else ofRaw? (divHalfEven a.raw n.toNat)

/-- `n / d`, rounded once at the last digit. -/
def ofRatio (n d : UInt64) : Except DecimalError Dec := (ofUnits n).quoUnits d

/-! ### Whole part and fraction -/

/-- The whole units of `a`. -/
def whole (a : Dec) : Nat := a.raw / scale

/-- The whole units of `a` as an amount, if they are below 2⁶⁴. -/
def wholeUnits (a : Dec) : Except DecimalError UInt64 :=
  if a.whole < UInt64.size then .ok (UInt64.ofNat a.whole) else .error .overflow

theorem wholeUnits_eq_ok_iff {a : Dec} {n : UInt64} :
    a.wholeUnits = .ok n ↔ n.toNat = a.whole := by
  have hn := n.toNat_lt_size
  unfold wholeUnits
  split
  next h =>
    have hback : (UInt64.ofNat a.whole).toNat = a.whole := UInt64.toNat_ofNat_of_lt' h
    constructor
    · intro h'
      cases h'
      exact hback
    · intro h'
      exact congrArg Except.ok (UInt64.toNat_inj.1 (hback.trans h'.symm))
  next h =>
    constructor
    · intro h'; cases h'
    · intro h'; omega

/-- What is left of `a` without its whole units. -/
def fraction (a : Dec) : Dec :=
  ⟨a.raw % scale, Nat.lt_of_le_of_lt (Nat.mod_le ..) a.raw_lt⟩

/-- Whole units and fraction make up the value. -/
theorem whole_mul_scale_add_fraction (a : Dec) :
    scale * a.whole + a.fraction.raw = a.raw :=
  Nat.div_add_mod a.raw scale

theorem fraction_raw_lt (a : Dec) : a.fraction.raw < scale :=
  Nat.mod_lt _ scale_pos

end Dec

end BlockHooks
