/-
BlockHooks/Json/Lexeme.lean

The smallest parts of JSON text: blanks, words, strings and numbers.

Every function reads one part from the front of the text and hands the rest
over.  It stops at the first thing that is wrong, and there are two ways to
be wrong here: the text may break the grammar (`malformed`) or end too early
(`truncated`).  The third kind of error, a value of the wrong shape, arises
in the readers that use this module.

What is handed over is never longer than the text was, and shorter behind a
part that has at least one character (the lemmas `length_of_…`).

A part that is skipped is held to less than one that is read: the escapes in
a skipped string need not make up characters, and a skipped number may be of
any size.
-/
import BlockHooks.Amount
import BlockHooks.Binary64

namespace BlockHooks

/-- Why a text is not the JSON form of a value. -/
inductive JsonError where
  /-- The text breaks the grammar. -/
  | malformed
  /-- The text ends too early. -/
  | truncated
  /-- A value has the wrong shape. -/
  | shape (message : String)
  deriving DecidableEq, Repr

namespace Json

/-- The front of a text as a value, and the rest of the text. -/
abbrev Reader (α : Type) := List Char → Except JsonError (α × List Char)

/-- The error at a place where something else should stand. -/
def unexpectedAt : List Char → JsonError
  | [] => .truncated
  | _ :: _ => .malformed

/-! ### Blanks and words -/

/-- What may stand between the parts of a value. -/
def isBlank (c : Char) : Bool := c == ' ' || c == '\n' || c == '\t' || c == '\r'

/-- The text from its first character that is no blank. -/
def dropBlanks (cs : List Char) : List Char := cs.dropWhile isBlank

theorem length_of_dropBlanks {cs rest : List Char} {c : Char} (h : dropBlanks cs = c :: rest) :
    rest.length < cs.length := by
  have := (List.dropWhile_sublist isBlank (l := cs)).length_le
  unfold dropBlanks at h
  rw [h, List.length_cons] at this
  exact this

/-- Reads the characters of a word. -/
def word : List Char → List Char → Except JsonError (List Char)
  | [], cs => .ok cs
  | _ :: _, [] => .error .truncated
  | w :: ws, c :: cs => if w = c then word ws cs else .error .malformed

theorem length_of_word {ws cs rest : List Char} (h : word ws cs = .ok rest) :
    rest.length ≤ cs.length := by
  fun_induction word ws cs with
  | case1 cs => cases h; exact Nat.le_refl _
  | case2 => cases h
  | case3 w ws cs ih => exact Nat.le_succ_of_le (ih h)
  | case4 => cases h

/-! ### Strings -/

/-- The number that a hexadecimal digit stands for, in either case. -/
def hexValue? (c : Char) : Option Nat :=
  if '0' ≤ c && c ≤ '9' then some (c.toNat - '0'.toNat)
  else if 'a' ≤ c && c ≤ 'f' then some (c.toNat - 'a'.toNat + 10)
  else if 'A' ≤ c && c ≤ 'F' then some (c.toNat - 'A'.toNat + 10)
  else none

/-- The number of bytes of a text. -/
def byteLength (cs : List Char) : Nat := (String.ofList cs).utf8ByteSize

/-- Reads the four hexadecimal digits of a code unit.  Four bytes must be
there before any of them is looked at. -/
def codeUnit : List Char → Except JsonError Nat
  | a :: b :: c :: d :: _ =>
    match hexValue? a, hexValue? b, hexValue? c, hexValue? d with
    | some a, some b, some c, some d => .ok (((a * 16 + b) * 16 + c) * 16 + d)
    | _, _, _, _ => .error .malformed
  | cs => if byteLength cs < 4 then .error .truncated else .error .malformed

/-- The first code unit of a pair that makes up one character. -/
def isLeading (u : Nat) : Bool := 0xd800 ≤ u && u < 0xdc00

/-- The second code unit of such a pair. -/
def isTrailing (u : Nat) : Bool := 0xdc00 ≤ u && u < 0xe000

/-- The second half of a character whose first code unit is `lead`, with the
number of characters that it takes up. -/
def trailingUnit (lead : Nat) : List Char → Except JsonError (Char × Nat)
  | '\\' :: 'u' :: cs =>
    match codeUnit cs with
    | .ok u =>
      if isTrailing u then
        .ok (Char.ofNat (0x10000 + (lead - 0xd800) * 0x400 + (u - 0xdc00)), 6)
      else .error .malformed
    | .error e => .error e
  | '\\' :: cs => .error (unexpectedAt cs)
  | cs => .error (unexpectedAt cs)

/-- The character that the code units at the front of `cs` write, with the
number of characters they take up.  Code units that are skipped may be any. -/
def unicodeEscape (skipped : Bool) (cs : List Char) : Except JsonError (Char × Nat) :=
  match codeUnit cs with
  | .error e => .error e
  | .ok u =>
    if skipped then .ok (Char.ofNat u, 4)
    else if isTrailing u then .error .malformed
    else if isLeading u then (trailingUnit u (cs.drop 4)).map fun (c, n) => (c, 4 + n)
    else .ok (Char.ofNat u, 4)

/-- The character that stands for itself after a backslash, or for a control
character. -/
def shortEscape? (c : Char) : Option Char :=
  match c with
  | '"' => some '"'
  | '\\' => some '\\'
  | '/' => some '/'
  | 'b' => some '\x08'
  | 'f' => some '\x0c'
  | 'n' => some '\n'
  | 'r' => some '\r'
  | 't' => some '\t'
  | _ => none

/-- The character that an escape writes, with the number of characters
after the backslash. -/
def escape (skipped : Bool) : List Char → Except JsonError (Char × Nat)
  | [] => .error .truncated
  | c :: cs =>
    if c = 'u' then (unicodeEscape skipped cs).map fun (c, n) => (c, n + 1)
    else
      match shortEscape? c with
      | some c => .ok (c, 1)
      | none => .error .malformed

/-- The text of a string, read behind its opening quote up to the closing one. -/
def stringBody (skipped : Bool) : Reader (List Char)
  | [] => .error .truncated
  | c :: cs =>
    if c = '"' then .ok ([], cs)
    else if c = '\\' then
      match escape skipped cs with
      | .error e => .error e
      | .ok (d, n) =>
        match stringBody skipped (cs.drop n) with
        | .ok (ds, rest) => .ok (d :: ds, rest)
        | .error e => .error e
    else if c < ' ' then .error .malformed
    else
      match stringBody skipped cs with
      | .ok (ds, rest) => .ok (c :: ds, rest)
      | .error e => .error e
  termination_by cs => cs.length
  decreasing_by all_goals (simp only [List.length_drop, List.length_cons]; omega)

theorem length_of_stringBody {skipped : Bool} {cs s rest : List Char}
    (h : stringBody skipped cs = .ok (s, rest)) : rest.length < cs.length := by
  fun_induction stringBody skipped cs generalizing s with
  | case2 => cases h; exact Nat.lt_succ_self _
  | case4 cs d n _ ds rest' hs _ ih =>
    cases h
    have := ih hs
    rw [List.length_drop] at this
    rw [List.length_cons]
    omega
  | case7 c cs _ _ _ ds rest' hs ih =>
    cases h
    exact Nat.lt_succ_of_lt (ih hs)
  | _ => cases h

/-- Reads a string behind its opening quote. -/
def stringRest : Reader String := fun cs =>
  (stringBody false cs).map fun (s, rest) => (String.ofList s, rest)

/-! ### Numbers -/

/-- What a number is, as far as the readers care. -/
inductive Number where
  | natural (n : Nat)
  /-- A negative whole number, by its absolute value. -/
  | negative (n : Nat)
  /-- Anything with a fraction or an exponent, too large a number, or minus zero. -/
  | floating
  deriving DecidableEq, Repr

/-- The digits at the front of a text, and what follows them. -/
def spanDigits (cs : List Char) : List Char × List Char :=
  (cs.takeWhile Char.isDigit, cs.dropWhile Char.isDigit)

/-- The parts of a number: its digits before and after the point, its
exponent, and whether it has a point or an exponent at all. -/
structure Numeral where
  whole : List Char
  fraction : List Char
  exponent : Int
  isPlain : Bool

/-- The error for digits that are not there.  In a number that is skipped
the end of the text counts as a wrong character. -/
def noDigits (skipped : Bool) (cs : List Char) : JsonError :=
  if skipped then .malformed else unexpectedAt cs

/-- Reads at least one digit. -/
def someDigits (skipped : Bool) : Reader (List Char) := fun cs =>
  match spanDigits cs with
  | ([], rest) => .error (noDigits skipped rest)
  | (ds, rest) => .ok (ds, rest)

theorem length_of_someDigits {skipped : Bool} {cs ds rest : List Char}
    (h : someDigits skipped cs = .ok (ds, rest)) : rest.length < cs.length := by
  have hl : (cs.takeWhile Char.isDigit).length + (cs.dropWhile Char.isDigit).length = cs.length := by
    rw [← List.length_append, List.takeWhile_append_dropWhile]
  unfold someDigits spanDigits at h
  split at h
  next => cases h
  next hne heq =>
    cases heq
    cases h
    have := List.length_pos_iff.2 hne
    omega

/-- Reads the digits before the point; a zero stands alone. -/
def wholeDigits (skipped : Bool) : Reader (List Char) := fun cs =>
  match someDigits skipped cs with
  | .ok ('0' :: _ :: _, _) => .error .malformed
  | r => r

theorem length_of_wholeDigits {skipped : Bool} {cs ds rest : List Char}
    (h : wholeDigits skipped cs = .ok (ds, rest)) : rest.length < cs.length := by
  unfold wholeDigits at h
  split at h
  next => cases h
  next => exact length_of_someDigits h

/-- The digits behind a point, if there is one. -/
def fractionDigits (skipped : Bool) : Reader (Option (List Char))
  | '.' :: cs => (someDigits skipped cs).map fun (ds, rest) => (some ds, rest)
  | cs => .ok (none, cs)

theorem length_of_fractionDigits {skipped : Bool} {cs rest : List Char} {ds : Option (List Char)}
    (h : fractionDigits skipped cs = .ok (ds, rest)) : rest.length ≤ cs.length := by
  unfold fractionDigits at h
  split at h
  next cs =>
    cases hd : someDigits skipped cs with
    | error e => rw [hd] at h; cases h
    | ok p =>
      rw [hd] at h
      cases h
      have := length_of_someDigits hd
      rw [List.length_cons]
      omega
  next => cases h; exact Nat.le_refl _

/-- The sign of an exponent, which may be left out. -/
def exponentSign : List Char → Int × List Char
  | '+' :: cs => (1, cs)
  | '-' :: cs => (-1, cs)
  | cs => (1, cs)

theorem length_exponentSign_le (cs : List Char) : (exponentSign cs).2.length ≤ cs.length := by
  unfold exponentSign
  split
  · exact Nat.le_succ _
  · exact Nat.le_succ _
  · exact Nat.le_refl _

/-- The exponent, if there is one. -/
def exponentPart (skipped : Bool) : Reader (Option Int)
  | c :: cs =>
    if c = 'e' || c = 'E' then
      let (sign, digits) := exponentSign cs
      (someDigits skipped digits).map fun (ds, rest) =>
        (some (sign * (Nat.ofDigitChars 10 ds 0 : Nat)), rest)
    else .ok (none, c :: cs)
  | [] => .ok (none, [])

theorem length_of_exponentPart {skipped : Bool} {cs rest : List Char} {e : Option Int}
    (h : exponentPart skipped cs = .ok (e, rest)) : rest.length ≤ cs.length := by
  unfold exponentPart at h
  split at h
  next c cs =>
    split at h
    next =>
      have hs := length_exponentSign_le cs
      dsimp only at h
      cases hd : someDigits skipped (exponentSign cs).2 with
      | error e => rw [hd] at h; cases h
      | ok p =>
        rw [hd] at h
        cases h
        have := length_of_someDigits hd
        rw [List.length_cons]
        omega
    next => cases h; exact Nat.le_refl _
  next => cases h; exact Nat.le_refl _

/-- Reads the parts of a number without its sign. -/
def numeral (skipped : Bool) : Reader Numeral := fun cs => do
  let (whole, cs) ← wholeDigits skipped cs
  let (fraction, cs) ← fractionDigits skipped cs
  let (exponent, cs) ← exponentPart skipped cs
  return (⟨whole, fraction.getD [], exponent.getD 0, fraction.isNone && exponent.isNone⟩, cs)

theorem length_of_numeral {skipped : Bool} {cs rest : List Char} {n : Numeral}
    (h : numeral skipped cs = .ok (n, rest)) : rest.length < cs.length := by
  unfold numeral at h
  cases hw : wholeDigits skipped cs with
  | error e => rw [hw] at h; cases h
  | ok w =>
    cases hf : fractionDigits skipped w.2 with
    | error e =>
      simp only [bind, Except.bind, hw, hf] at h
      cases h
    | ok f =>
      cases he : exponentPart skipped f.2 with
      | error e =>
        simp only [bind, Except.bind, hw, hf, he] at h
        cases h
      | ok e =>
        simp only [bind, Except.bind, hw, hf, he] at h
        cases h
        -- the whole digits take a character at least, and the other parts give none back
        have := length_of_wholeDigits hw
        have := length_of_fractionDigits hf
        have := length_of_exponentPart he
        omega

/-- Appends digits to `n` as long as the number stays below 2⁶⁴; answers the
number and how many digits are left over. -/
def appendDigits (n : Nat) : List Char → Nat × Nat
  | [] => (n, 0)
  | c :: cs =>
    let next := Nat.ofDigitChars 10 [c] n
    if next < UInt64.size then appendDigits next cs else (n, cs.length + 1)

/-- The whole number and the power of ten that a numeral stands for.  Digits
count as long as they make up a number below 2⁶⁴.  Those that are left over
count as zeros before the point and as nothing behind it; behind the point
another digit may fit even if one before it did not. -/
def Numeral.scaled (n : Numeral) : Nat × Int :=
  let (whole, zeros) := appendDigits 0 n.whole
  let (digits, dropped) := appendDigits whole n.fraction
  (digits, n.exponent + zeros + dropped - n.fraction.length)

/-- Tells whether a number is so large that no floating point number is near it. -/
def Numeral.isTooLarge (n : Numeral) : Bool :=
  match n.scaled with
  | (digits, .ofNat e) => Binary64.overflows digits e
  | (_, .negSucc _) => false

/-- What a numeral with the given sign is. -/
def Numeral.value (negative : Bool) (n : Numeral) : Number :=
  let digits := Nat.ofDigitChars 10 n.whole 0
  if !n.isPlain then .floating
  else if negative then
    if 0 < digits && digits ≤ minSigned.natAbs then .negative digits else .floating
  else if digits < UInt64.size then .natural digits
  else .floating

/-- Reads a number behind its sign. -/
def number (negative : Bool) : Reader Number := fun cs => do
  let (n, cs) ← numeral false cs
  if n.isTooLarge then .error .malformed else .ok (n.value negative, cs)

end Json

end BlockHooks
