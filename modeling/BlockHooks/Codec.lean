/-
BlockHooks/Codec.lean

The binary form of stored values.

Whole numbers are written in a fixed number of bytes, the least significant
first.  A text is its UTF-8 bytes behind their number in four bytes.  A
record is its fields in order, with nothing between them.  A value is read
back from all of its input: an input that ends too early is refused, and so
is one that goes on.

`Codec.decodePart` reads one value from the front of an input and hands the
rest over; `Codec.decode` insists that there is no rest.
-/
import BlockHooks.Decimal.Basic
import BlockHooks.Address

namespace BlockHooks

/-- Why bytes are not the form of a value, or a value has no form. -/
inductive CodecError where
  /-- The input ends before the value does. -/
  | short
  /-- The value ends before the input does. -/
  | trailing
  /-- The bytes of a text are not UTF-8. -/
  | notUtf8 (fault : Utf8.Fault)
  /-- A text is too long for its length to fit in four bytes. -/
  | longText
  deriving DecidableEq, Repr

/-- How it is told that a value has no form, or that bytes are none. -/
def CodecError.message : CodecError → String
  | .short => "Unexpected length of input"
  | .trailing => "Not all bytes read"
  | .notUtf8 fault => fault.message
  | .longText => "invalid data"

/-- Types with a binary form. -/
class Codec (α : Type) where
  encode : α → Except CodecError Bytes
  decodePart : Bytes → Except CodecError (α × Bytes)

namespace Codec

/-- Reads a value from the whole of an input. -/
def decode {α : Type} [Codec α] (bs : Bytes) : Except CodecError α :=
  match decodePart bs with
  | .ok (v, []) => .ok v
  | .ok (_, _ :: _) => .error .trailing
  | .error e => .error e

/-! ### Whole numbers -/

/-- The low `width` bytes of `n`, the least significant first. -/
def littleEndian : Nat → Nat → Bytes
  | 0, _ => []
  | width + 1, n => UInt8.ofNat n :: littleEndian width (n / 256)

/-- The number whose bytes, the least significant first, are given. -/
def ofLittleEndian : Bytes → Nat
  | [] => 0
  | b :: bs => b.toNat + 256 * ofLittleEndian bs

/-- How many numbers `width` bytes can write. -/
def byteRange : Nat → Nat
  | 0 => 1
  | width + 1 => 256 * byteRange width

@[simp] theorem length_littleEndian (width n : Nat) :
    (littleEndian width n).length = width := by
  induction width generalizing n with
  | zero => rfl
  | succ width ih => simp [littleEndian, ih]

theorem ofLittleEndian_lt (bs : Bytes) : ofLittleEndian bs < byteRange bs.length := by
  induction bs with
  | nil => decide
  | cons b bs ih =>
    have hb := b.toNat_lt
    simp only [ofLittleEndian, List.length_cons, byteRange]
    omega

theorem ofLittleEndian_littleEndian {width n : Nat} (h : n < byteRange width) :
    ofLittleEndian (littleEndian width n) = n := by
  induction width generalizing n with
  | zero =>
    simp only [byteRange] at h
    simp only [littleEndian, ofLittleEndian]
    omega
  | succ width ih =>
    have h' : n / 256 < byteRange width := by
      simp only [byteRange] at h
      omega
    simp only [littleEndian, ofLittleEndian, ih h', UInt8.toNat_ofNat']
    omega

theorem littleEndian_ofLittleEndian (bs : Bytes) :
    littleEndian bs.length (ofLittleEndian bs) = bs := by
  induction bs with
  | nil => rfl
  | cons b bs ih =>
    have hb := b.toNat_lt
    have hdiv : (b.toNat + 256 * ofLittleEndian bs) / 256 = ofLittleEndian bs := by omega
    simp only [List.length_cons, ofLittleEndian, littleEndian, hdiv, ih]
    congr 1
    apply UInt8.toNat_inj.1
    simp only [UInt8.toNat_ofNat']
    omega

/-- Splits `width` bytes off the front of an input. -/
def splitBytes (width : Nat) (bs : Bytes) : Except CodecError (Bytes × Bytes) :=
  if bs.length < width then .error .short else .ok (bs.take width, bs.drop width)

/-- Reads a number of `width` bytes. -/
def decodeNat (width : Nat) (bs : Bytes) : Except CodecError (Nat × Bytes) := do
  let (front, rest) ← splitBytes width bs
  return (ofLittleEndian front, rest)

instance : Codec UInt64 where
  encode n := .ok (littleEndian 8 n.toNat)
  decodePart bs := do
    let (n, rest) ← decodeNat 8 bs
    return (UInt64.ofNat n, rest)

instance : Codec Int64 where
  encode n := .ok (littleEndian 8 n.toUInt64.toNat)
  decodePart bs := do
    let (n, rest) ← decodeNat 8 bs
    return ((UInt64.ofNat n).toInt64, rest)

instance : Codec Dec where
  encode a := .ok (littleEndian 16 a.raw)
  decodePart bs :=
    if h : bs.length < 16 then .error .short
    else .ok
      (⟨ofLittleEndian (bs.take 16), by
        have := ofLittleEndian_lt (bs.take 16)
        rw [List.length_take, Nat.min_eq_left (Nat.le_of_not_lt h)] at this
        exact this⟩, bs.drop 16)

/-! ### Texts -/

instance : Codec String where
  encode s :=
    let bs := utf8 s
    if bs.length < UInt32.size then .ok (littleEndian 4 bs.length ++ bs) else .error .longText
  decodePart bs := do
    let (length, rest) ← decodeNat 4 bs
    let (text, rest) ← splitBytes length rest
    match ofUtf8? text with
    | some s => return (s, rest)
    | none => .error (.notUtf8 ((Utf8.firstFault text).getD ⟨0, none⟩))

instance : Codec Address where
  encode a := Codec.encode a.text
  decodePart bs := do
    let (s, rest) ← Codec.decodePart bs
    return (⟨s⟩, rest)

end Codec

end BlockHooks
