/-
BlockHooks/Amount.lean

Sums of 64-bit words that do not wrap.

An amount, a height or an offset is a word below 2⁶⁴.  A sum of two of them
is either capped at the largest word or refused when it does not fit; which
of the two is right depends on what the sum is for.
-/

namespace BlockHooks

/-- `a + b`, or the largest word if that does not fit. -/
def addCapped (a b : UInt64) : UInt64 :=
  UInt64.ofNat (min (a.toNat + b.toNat) (UInt64.size - 1))

/-- `a + b`, if it fits. -/
def addChecked? (a b : UInt64) : Option UInt64 :=
  if a.toNat + b.toNat < UInt64.size then some (a + b) else none

/-- The least signed word. -/
def minSigned : Int := -9223372036854775808

/-- The largest signed word. -/
def maxSigned : Int := 9223372036854775807

/-- `a + b` for signed words, or the word nearest to it if it does not fit. -/
def addSignedCapped (a b : Int64) : Int64 :=
  Int64.ofInt (max minSigned (min (a.toInt + b.toInt) maxSigned))

@[simp] theorem toNat_addCapped (a b : UInt64) :
    (addCapped a b).toNat = min (a.toNat + b.toNat) (UInt64.size - 1) := by
  unfold addCapped
  rw [UInt64.toNat_ofNat']
  refine Nat.mod_eq_of_lt ?_
  simp only [UInt64.size]
  omega

theorem addChecked?_eq_some_iff {a b c : UInt64} :
    addChecked? a b = some c ↔ c.toNat = a.toNat + b.toNat := by
  have hc := c.toNat_lt
  unfold addChecked?
  simp only [UInt64.size]
  split
  next h =>
    constructor
    · intro h'
      cases h'
      rw [UInt64.toNat_add]
      omega
    · intro h'
      congr 1
      apply UInt64.toNat_inj.1
      rw [UInt64.toNat_add]
      omega
  next h =>
    constructor
    · intro h'; cases h'
    · intro h'; omega

end BlockHooks
