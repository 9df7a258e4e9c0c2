/-
BlockHooks/Json/Reader.lean

Reading values from JSON text.

A reader knows what it wants and says so when it meets something else.  The
text is read once, from front to back, and the first thing that is wrong
with it, in its grammar or in the shape of a value, is the error.

A record is written as an object, whose keys may come in any order and among
others that mean nothing, or as an array of its fields in order, from which
fields at the end may be left out if they have a default.  The fields read
so far are kept in a draft (`RecordShape`); when the text of the record ends
the draft is completed, and the first field that is still missing, in the
order of the fields, is the error.
-/
import BlockHooks.Json.Skipping
import BlockHooks.Text.Quoted

namespace BlockHooks

namespace Json

/-- Types whose values have a JSON form. -/
class Readable (α : Type) where
  read : Reader α

/-! ### Wrong shapes -/

/-- A value of another type than the one wanted. -/
def invalidType (found wanted : String) : JsonError :=
  .shape s!"invalid type: {found}, expected {wanted}"

/-- A whole number outside the range wanted. -/
def invalidInteger (n : Int) (wanted : String) : JsonError :=
  .shape s!"invalid value: integer `{n}`, expected {wanted}"

/-- The error for the number `n` where something else was wanted. -/
def Number.wrongType (wanted : String) : Number → JsonError
  | .natural n => invalidType s!"integer `{n}`" wanted
  | .negative n => invalidType s!"integer `-{n}`" wanted
  | .floating => invalidType "floating point" wanted

/-- What `found` says if the text was read, and otherwise why it was not. -/
def errorAfter {α : Type} (read : Except JsonError α) (found : α → JsonError) : JsonError :=
  match read with
  | .ok a => found a
  | .error e => e

/-- The error for the value at the front of the text where something else
was wanted.  A word, a string or a number is read first; an array or object
is known by its bracket. -/
def wrongType (wanted : String) : List Char → JsonError
  | [] => .truncated
  | c :: cs =>
    if c = 'n' then errorAfter (word ['u', 'l', 'l'] cs) fun _ => invalidType "null" wanted
    else if c = 't' then
      errorAfter (word ['r', 'u', 'e'] cs) fun _ => invalidType "boolean `true`" wanted
    else if c = 'f' then
      errorAfter (word ['a', 'l', 's', 'e'] cs) fun _ => invalidType "boolean `false`" wanted
    else if c = '"' then
      errorAfter (stringRest cs) fun (s, _) => invalidType s!"string {quoted s}" wanted
    else if c = '[' then invalidType "sequence" wanted
    else if c = '{' then invalidType "map" wanted
    else if c = '-' then errorAfter (number true cs) fun (n, _) => n.wrongType wanted
    else if c.isDigit then errorAfter (number false (c :: cs)) fun (n, _) => n.wrongType wanted
    else .malformed

/-! ### Strings and whole numbers -/

/-- Reads a text between quotes. -/
def readString : Reader String := fun cs =>
  match dropBlanks cs with
  | '"' :: cs => stringRest cs
  | cs => .error (wrongType "a string" cs)

/-- A number read as a whole number from `low` to `high`. -/
def ofNumber (wanted : String) (low high : Int) : Number → Except JsonError Int
  | .natural n => if (n : Int) ≤ high then .ok n else .error (invalidInteger n wanted)
  | .negative n => if low ≤ -(n : Int) then .ok (-n) else .error (invalidInteger (-n) wanted)
  | .floating => .error (invalidType "floating point" wanted)

/-- Reads a whole number from `low` to `high`. -/
def readInteger (wanted : String) (low high : Int) : Reader Int := fun cs =>
  match dropBlanks cs with
  | [] => .error .truncated
  | c :: cs =>
    if c = '-' then do
      let (n, rest) ← number true cs
      return (← ofNumber wanted low high n, rest)
    else if c.isDigit then do
      let (n, rest) ← number false (c :: cs)
      return (← ofNumber wanted low high n, rest)
    else .error (wrongType wanted (c :: cs))

instance : Readable String := ⟨readString⟩

instance : Readable UInt64 where
  read cs := do
    let (n, cs) ← readInteger "u64" 0 (UInt64.size - 1) cs
    return (UInt64.ofNat n.toNat, cs)

instance : Readable UInt32 where
  read cs := do
    let (n, cs) ← readInteger "u32" 0 (UInt32.size - 1) cs
    return (UInt32.ofNat n.toNat, cs)

instance : Readable Int64 where
  read cs := do
    let (n, cs) ← readInteger "i64" minSigned maxSigned cs
    return (Int64.ofInt n, cs)

/-- An absent value is written `null`. -/
instance {α : Type} [Readable α] : Readable (Option α) where
  read cs :=
    match dropBlanks cs with
    | 'n' :: cs => do
      let cs ← word ['u', 'l', 'l'] cs
      return (none, cs)
    | cs => do
      let (a, cs) ← Readable.read cs
      return (some a, cs)

/-! ### Arrays -/

/-- Tells whether another element follows in an array, and where it begins.
Behind the opening bracket, `first`, no comma is needed. -/
def nextElement (first : Bool) (cs : List Char) : Except JsonError (Bool × List Char) :=
  match dropBlanks cs with
  | [] => .error .truncated
  | c :: cs =>
    if c = ']' then .ok (false, c :: cs)
    else if first then .ok (true, c :: cs)
    else if c = ',' then
      match dropBlanks cs with
      | [] => .error .truncated
      | c :: cs => if c = ']' then .error .malformed else .ok (true, c :: cs)
    else .error .malformed

/-- Reads the closing bracket of an array. -/
def closeArray (cs : List Char) : Except JsonError (List Char) :=
  match dropBlanks cs with
  | ']' :: cs => .ok cs
  | cs => .error (unexpectedAt cs)

/-- Reads elements until none follows. -/
def readElements {α : Type} [Readable α] : Nat → Bool → Reader (List α)
  | 0, _, _ => .error .truncated
  | fuel + 1, first, cs => do
    let (more, cs) ← nextElement first cs
    if more then
      let (a, cs) ← Readable.read cs
      let (as, cs) ← readElements fuel false cs
      return (a :: as, cs)
    else
      return ([], cs)

instance {α : Type} [Readable α] : Readable (List α) where
  read cs :=
    match dropBlanks cs with
    | '[' :: cs => do
      let (as, cs) ← readElements (cs.length + 1) true cs
      return (as, ← closeArray cs)
    | cs => .error (wrongType "a sequence" cs)

/-! ### Records -/

/-- A field of a record whose draft is of type `δ`. -/
structure FieldShape (δ : Type) where
  name : String
  /-- Tells whether the draft already has the field. -/
  isSet : δ → Bool
  /-- Reads the field into a draft. -/
  read : δ → Reader δ

/-- A field that is read by its type's reader. -/
def FieldShape.of {δ α : Type} [Readable α] (name : String) (get : δ → Option α)
    (set : α → δ → δ) : FieldShape δ where
  name := name
  isSet d := (get d).isSome
  read d cs := do
    let (a, cs) ← Readable.read cs
    return (set a d, cs)

/-- How a record is read: its fields in order, the empty draft, and the
completion of a draft, which answers the name of the first missing field if
the draft lacks one that has no default. -/
structure RecordShape (δ α : Type) where
  name : String
  start : δ
  fields : List (FieldShape δ)
  complete : δ → Except String α

namespace RecordShape

variable {δ α : Type}

/-- What an error calls the record. -/
def title (r : RecordShape δ α) : String := s!"struct {r.name}"

/-- Reads the colon behind a key. -/
def colon (cs : List Char) : Except JsonError (List Char) :=
  match dropBlanks cs with
  | ':' :: cs => .ok cs
  | cs => .error (unexpectedAt cs)

/-- Tells whether another key follows in an object, and where it begins,
behind its quote. -/
def nextKey (first : Bool) (cs : List Char) : Except JsonError (Option (List Char)) :=
  match dropBlanks cs with
  | [] => .error .truncated
  | c :: cs =>
    if c = '}' then .ok none
    else if first then
      if c = '"' then .ok (some cs) else .error .malformed
    else if c = ',' then
      match dropBlanks cs with
      | '"' :: cs => .ok (some cs)
      | cs => .error (unexpectedAt cs)
    else .error .malformed

/-- Reads a field into the draft, which must not have it yet. -/
def readField (f : FieldShape δ) (d : δ) (cs : List Char) : Except JsonError (δ × List Char) :=
  if f.isSet d then .error (.shape s!"duplicate field `{f.name}`")
  else do
    let cs ← colon cs
    f.read d cs

/-- Reads the value behind a key; a key that names no field is skipped. -/
def readMember (r : RecordShape δ α) (key : String) (d : δ) : Reader δ := fun cs =>
  match r.fields.find? fun f => f.name == key with
  | some f => readField f d cs
  | none => do
    let cs ← colon cs
    return (d, ← skip cs)

/-- Reads keys and values until no key follows. -/
def readMembers (r : RecordShape δ α) : Nat → Bool → δ → Reader δ
  | 0, _, _, _ => .error .truncated
  | fuel + 1, first, d, cs => do
    match ← nextKey first cs with
    | none => return (d, cs)
    | some cs =>
      let (key, cs) ← stringRest cs
      let (d, cs) ← r.readMember key d cs
      r.readMembers fuel false d cs

/-- Reads the closing bracket of an object. -/
def closeObject (cs : List Char) : Except JsonError (List Char) :=
  match dropBlanks cs with
  | '}' :: cs => .ok cs
  | cs => .error (unexpectedAt cs)

/-- Reads the fields in order until there are no more fields or elements;
answers the draft and the number of fields read. -/
def readInOrder : List (FieldShape δ) → Bool → δ → Reader (δ × Nat)
  | [], _, d, cs => .ok ((d, 0), cs)
  | f :: fs, first, d, cs => do
    let (more, cs) ← nextElement first cs
    if more then
      let (d, cs) ← f.read d cs
      let ((d, n), cs) ← readInOrder fs false d cs
      return ((d, n + 1), cs)
    else
      return ((d, 0), cs)

/-- Completes a draft read from an object. -/
def finishObject (r : RecordShape δ α) (d : δ) : Except JsonError α :=
  (r.complete d).mapError fun missing => .shape s!"missing field `{missing}`"

/-- Completes a draft read from an array of `n` elements. -/
def finishArray (r : RecordShape δ α) (d : δ) (n : Nat) : Except JsonError α :=
  (r.complete d).mapError fun _ =>
    .shape (s!"invalid length {n}, expected {r.title} with {r.fields.length} "
      ++ if r.fields.length = 1 then "element" else "elements")

/-- Reads a record. -/
def read (r : RecordShape δ α) : Reader α := fun cs =>
  match dropBlanks cs with
  | '{' :: cs => do
    let (d, cs) ← r.readMembers (cs.length + 1) true r.start cs
    let a ← r.finishObject d
    return (a, ← closeObject cs)
  | '[' :: cs => do
    let ((d, n), cs) ← readInOrder r.fields true r.start cs
    let a ← r.finishArray d n
    return (a, ← closeArray cs)
  | cs => .error (wrongType r.title cs)

end RecordShape

/-- The value of a draft's field, or its name if it is missing. -/
def required {α : Type} (name : String) : Option α → Except String α
  | some a => .ok a
  | none => .error name

/-! ### Whole texts -/

/-- Reads a value from the whole of a text. -/
def readChars {α : Type} [Readable α] (cs : List Char) : Except JsonError α := do
  let (a, rest) ← Readable.read cs
  match dropBlanks rest with
  | [] => .ok a
  | _ :: _ => .error .malformed

/-- `readChars` on a text. -/
def parse {α : Type} [Readable α] (s : String) : Except JsonError α := readChars s.toList

end Json

end BlockHooks
