/-
BlockHooks/Text/Utf8.lean

Text as bytes.

`utf8 s` is the UTF-8 encoding of a text and `ofUtf8?` reads it back; it
answers exactly on well-formed bytes.  Where bytes are not well formed,
`firstFault` finds the first fault, and `lossyText` puts one replacement
character in the place of each maximal ill-formed part, so that any key can
be shown.  On well-formed bytes `lossyText` changes nothing.
-/

namespace BlockHooks

/-- A sequence of bytes. -/
abbrev Bytes := List UInt8

/-- The UTF-8 encoding of a text. -/
def utf8 (s : String) : Bytes := s.toByteArray.data.toList

/-- The text whose UTF-8 encoding is `bs`, if there is one. -/
def ofUtf8? (bs : Bytes) : Option String := String.fromUTF8? ⟨bs.toArray⟩

@[simp] theorem ofUtf8?_utf8 (s : String) : ofUtf8? (utf8 s) = some s := by
  show String.fromUTF8? s.toByteArray = some s
  unfold String.fromUTF8?
  rw [dif_pos s.isValidUTF8]
  rfl

theorem ofUtf8?_eq_some_iff {bs : Bytes} {s : String} : ofUtf8? bs = some s ↔ bs = utf8 s := by
  constructor
  · intro h
    unfold ofUtf8? String.fromUTF8? at h
    split at h
    · cases h; rfl
    · cases h
  · rintro rfl
    exact ofUtf8?_utf8 s

theorem utf8_injective {s t : String} (h : utf8 s = utf8 t) : s = t := by
  have := ofUtf8?_utf8 s
  rw [h, ofUtf8?_utf8] at this
  exact (Option.some.inj this).symm

namespace Utf8

/-! ### Ill-formed parts -/

/-- What stands at the front of a byte sequence. -/
inductive Front where
  /-- A well-formed character and the bytes after it. -/
  | char (c : Char) (length : Nat)
  /-- An ill-formed part of the given length. -/
  | invalid (length : Nat)
  /-- The beginning of a character that the input ends in the middle of. -/
  | incomplete
  deriving Repr

/-- The number of bytes that a character with this first byte has; none for
a byte that begins no character. -/
def width? (b : UInt8) : Option Nat :=
  if b < 0x80 then some 1
  else if b < 0xc2 then none
  else if b < 0xe0 then some 2
  else if b < 0xf0 then some 3
  else if b < 0xf5 then some 4
  else none

/-- The bytes that may follow the first byte `b`.  Overlong forms,
surrogates and numbers above U+10FFFF are excluded here. -/
def isSecond (b s : UInt8) : Bool :=
  let low : UInt8 := if b = 0xe0 then 0xa0 else if b = 0xf0 then 0x90 else 0x80
  let high : UInt8 := if b = 0xed then 0x9f else if b = 0xf4 then 0x8f else 0xbf
  low ≤ s && s ≤ high

/-- The bytes that may follow the second one of a character. -/
def isContinuation (b : UInt8) : Bool := 0x80 ≤ b && b < 0xc0

/-- The number of bytes of a character of `width` bytes that are there,
given that the first one is. -/
def present (width : Nat) (b : UInt8) (rest : Bytes) : Nat :=
  match rest with
  | [] => 1
  | s :: more =>
    if width < 2 then 1
    else if isSecond b s then 2 + ((more.take (width - 2)).takeWhile isContinuation).length
    else 1

/-- The code point written by the bytes of one character. -/
def codePoint : Bytes → Nat
  | [a] => a.toNat
  | [a, b] => (a.toNat % 0x20) * 0x40 + b.toNat % 0x40
  | [a, b, c] => (a.toNat % 0x10) * 0x1000 + (b.toNat % 0x40) * 0x40 + c.toNat % 0x40
  | [a, b, c, d] =>
    (a.toNat % 0x08) * 0x40000 + (b.toNat % 0x40) * 0x1000 + (c.toNat % 0x40) * 0x40
      + d.toNat % 0x40
  | _ => 0

/-- What stands at the front of `b :: rest`. -/
def front (b : UInt8) (rest : Bytes) : Front :=
  match width? b with
  | none => .invalid 1
  | some w =>
    let n := present w b rest
    if n = w then .char (Char.ofNat (codePoint (b :: rest.take (w - 1)))) w
    else if rest.length < n then .incomplete
    else .invalid n

/-- Where and how a byte sequence first fails to be UTF-8. -/
structure Fault where
  /-- The number of well-formed bytes before the fault. -/
  index : Nat
  /-- The length of the ill-formed part; none if the input just ends too early. -/
  length : Option Nat
  deriving DecidableEq, Repr

/-- The first fault of a byte sequence that begins at position `index`. -/
def firstFaultFrom (index : Nat) : Bytes → Option Fault
  | [] => none
  | b :: rest =>
    match front b rest with
    | .char _ n => firstFaultFrom (index + n) (rest.drop (n - 1))
    | .invalid n => some ⟨index, some n⟩
    | .incomplete => some ⟨index, none⟩
  termination_by bs => bs.length
  decreasing_by simp only [List.length_drop, List.length_cons]; omega

/-- The first fault of a byte sequence. -/
def firstFault (bs : Bytes) : Option Fault := firstFaultFrom 0 bs

/-- How it is told that bytes are not UTF-8. -/
def Fault.message (f : Fault) : String :=
  match f.length with
  | some n => s!"invalid utf-8 sequence of {n} bytes from index {f.index}"
  | none => s!"incomplete utf-8 byte sequence from index {f.index}"

/-- The characters of a byte sequence, with U+FFFD for each ill-formed part. -/
def repaired : Bytes → List Char
  | [] => []
  | b :: rest =>
    match front b rest with
    | .char c n => c :: repaired (rest.drop (n - 1))
    | .invalid n => '\uFFFD' :: repaired (rest.drop (n - 1))
    | .incomplete => ['\uFFFD']
  termination_by bs => bs.length
  decreasing_by all_goals (simp only [List.length_drop, List.length_cons]; omega)

end Utf8

/-- The text that `bs` encodes, with U+FFFD in the place of each maximal
ill-formed part. -/
def lossyText (bs : Bytes) : String :=
  match ofUtf8? bs with
  | some s => s
  | none => String.ofList (Utf8.repaired bs)

@[simp] theorem lossyText_utf8 (s : String) : lossyText (utf8 s) = s := by
  simp [lossyText]

end BlockHooks
