/-
BlockHooks/Proofs/JsonForms.lean

Values are read back from their compact JSON text.

That is so of strings and numbers, and it passes on to lists and to records
(`LawfulForm`).  A list is read element by element, each behind a comma.  A
record is read member by member: each member that was written fills one
field of the draft (`RecordShape.Takes`), and once all have been read the
draft is completed to the record (`RecordShape.read_objectChars`).
-/
import BlockHooks.Hooks.Genesis
import BlockHooks.Proofs.JsonText

namespace BlockHooks

namespace Json

/-- Values that are read back from their compact text, whatever may follow
it.  The text begins neither with a blank nor with the end of an array. -/
class LawfulForm (α : Type) [Readable α] [Writable α] : Prop where
  read_chars (a : α) {rest : List Char} (hrest : Follows rest) :
    Readable.read (Writable.chars a ++ rest) = .ok (a, rest)
  begins (a : α) : ∃ c cs, Writable.chars a = c :: cs ∧ isBlank c = false ∧ c ≠ ']'

theorem dropBlanks_cons {c : Char} (h : isBlank c = false) (cs : List Char) :
    dropBlanks (c :: cs) = c :: cs :=
  List.dropWhile_cons_of_neg (by simp [h])

/-! ### Strings -/

theorem stringChars_begins (s : String) :
    ∃ c cs, stringChars s = c :: cs ∧ isBlank c = false ∧ c ≠ ']' :=
  ⟨'"', s.toList.flatMap escaped ++ ['"'], rfl, by decide, by decide⟩

instance : LawfulForm String where
  read_chars s rest _ := readString_stringChars s rest
  begins := stringChars_begins

instance : LawfulForm Address where
  read_chars a rest _ := by
    show (do let (s, cs) ← readString (stringChars a.text ++ rest); return (Address.mk s, cs)) = _
    rw [readString_stringChars]
    rfl
  begins a := stringChars_begins a.text

instance : LawfulForm Dec where
  read_chars d rest _ := by
    show (do
      let (s, cs) ← readString (stringChars d.text ++ rest)
      match Dec.parse s with
      | .ok d => return (d, cs)
      | .error e => .error (.shape e.message)) = _
    rw [readString_stringChars]
    show (match Dec.parse d.text with
      | .ok d => Except.ok (d, rest)
      | .error e => Except.error (JsonError.shape e.message)) = _
    rw [Dec.parse_text]
  begins d := stringChars_begins d.text

/-! ### Whole numbers -/

theorem digits_begins (n : Nat) : ∃ c cs, digits n = c :: cs ∧ c.isDigit = true := by
  rcases e : digits n with - | ⟨c, cs⟩
  · exact absurd e Nat.toDigits_ne_nil
  · exact ⟨c, cs, rfl, isDigit_of_mem_digits (by rw [e]; exact List.mem_cons_self)⟩

theorem ne_of_isDigit {c d : Char} (h : c.isDigit = true) (hd : d.isDigit = false) : c ≠ d := by
  rintro rfl
  rw [h] at hd
  cases hd

theorem isBlank_of_isDigit {c : Char} (h : c.isDigit = true) : isBlank c = false := by
  have hblank : c ≠ ' ' := ne_of_isDigit h (by decide)
  have hline : c ≠ '\n' := ne_of_isDigit h (by decide)
  have htab : c ≠ '\t' := ne_of_isDigit h (by decide)
  have hreturn : c ≠ '\r' := ne_of_isDigit h (by decide)
  simp [isBlank, hblank, hline, htab, hreturn]

theorem digits_begins_value (n : Nat) :
    ∃ c cs, digits n = c :: cs ∧ isBlank c = false ∧ c ≠ ']' := by
  obtain ⟨c, cs, hcs, hc⟩ := digits_begins n
  exact ⟨c, cs, hcs, isBlank_of_isDigit hc, ne_of_isDigit hc (by decide)⟩

/-- A number that is not negative is read back. -/
theorem readInteger_digits {n : Nat} {high : Int} (wanted : String) (low : Int)
    (hword : n < UInt64.size) (hhigh : (n : Int) ≤ high) {rest : List Char}
    (hrest : Follows rest) :
    readInteger wanted low high (digits n ++ rest) = .ok ((n : Int), rest) := by
  obtain ⟨c, cs, hcs, hc⟩ := digits_begins n
  have hnumber := number_digits false hword hrest
  have hvalue : (⟨digits n, [], 0, true⟩ : Numeral).value false = .natural n := by
    have hwritten : Nat.ofDigitChars 10 (digits n) 0 = n := ofDigits_digits n
    simp [Numeral.value, hwritten, hword]
  rw [hvalue, hcs] at hnumber
  rw [readInteger, hcs, List.cons_append, dropBlanks_cons (isBlank_of_isDigit hc)]
  dsimp only
  rw [if_neg (ne_of_isDigit hc (by decide)), if_pos hc]
  rw [List.cons_append] at hnumber
  simp only [hnumber, bind, Except.bind, ofNumber, if_pos hhigh]
  rfl

/-- A negative number is read back. -/
theorem readInteger_negative {n : Nat} {low : Int} (wanted : String) (high : Int) (hpos : 0 < n)
    (hword : n ≤ minSigned.natAbs) (hlow : low ≤ -(n : Int)) {rest : List Char}
    (hrest : Follows rest) :
    readInteger wanted low high ('-' :: (digits n ++ rest)) = .ok (-(n : Int), rest) := by
  have hsize : n < UInt64.size := Nat.lt_of_le_of_lt hword (by decide)
  have hnumber := number_digits true hsize hrest
  have hvalue : (⟨digits n, [], 0, true⟩ : Numeral).value true = .negative n := by
    have hwritten : Nat.ofDigitChars 10 (digits n) 0 = n := ofDigits_digits n
    simp [Numeral.value, hwritten, hpos, hword]
  rw [hvalue] at hnumber
  rw [readInteger, dropBlanks_cons (by decide)]
  dsimp only
  rw [if_pos rfl]
  simp only [hnumber, bind, Except.bind, ofNumber, if_pos hlow]
  rfl

instance : LawfulForm UInt64 where
  read_chars n rest hrest := by
    have hword := n.toNat_lt_size
    have hhigh : (n.toNat : Int) ≤ (UInt64.size : Int) - 1 := by omega
    show (do
      let (k, cs) ← readInteger "u64" 0 (UInt64.size - 1) (digits n.toNat ++ rest)
      return (UInt64.ofNat k.toNat, cs)) = _
    rw [readInteger_digits "u64" 0 hword hhigh hrest]
    show Except.ok (UInt64.ofNat (Int.toNat (n.toNat : Int)), rest) = _
    rw [Int.toNat_natCast, UInt64.ofNat_toNat]
  begins n := digits_begins_value n.toNat

theorem chars_negative {n : Int64} (h : n.toInt < 0) :
    Writable.chars n = '-' :: digits n.toInt.natAbs :=
  if_pos h

theorem chars_nonnegative {n : Int64} (h : ¬ n.toInt < 0) :
    Writable.chars n = digits n.toInt.natAbs :=
  if_neg h

instance : LawfulForm Int64 where
  read_chars n rest hrest := by
    have hlow : minSigned ≤ n.toInt := n.le_toInt
    have hhigh : n.toInt ≤ maxSigned := Int.lt_add_one_iff.1 n.toInt_lt
    have hread : readInteger "i64" minSigned maxSigned (Writable.chars n ++ rest)
        = .ok (n.toInt, rest) := by
      by_cases hsign : n.toInt < 0
      · have habs : -(n.toInt.natAbs : Int) = n.toInt := by omega
        rw [chars_negative hsign, List.cons_append,
          readInteger_negative "i64" maxSigned (by omega) (by simp only [minSigned] at *; omega)
            (by omega) hrest, habs]
      · have habs : (n.toInt.natAbs : Int) = n.toInt := by omega
        rw [chars_nonnegative hsign,
          readInteger_digits "i64" minSigned
            (by simp only [maxSigned, UInt64.size] at *; omega) (by omega) hrest, habs]
    show (do
      let (k, cs) ← readInteger "i64" minSigned maxSigned (Writable.chars n ++ rest)
      return (Int64.ofInt k, cs)) = _
    rw [hread]
    show Except.ok (Int64.ofInt n.toInt, rest) = _
    rw [Int64.ofInt_toInt]
  begins n := by
    by_cases hsign : n.toInt < 0
    · exact ⟨'-', digits n.toInt.natAbs, chars_negative hsign, by decide, by decide⟩
    · rw [chars_nonnegative hsign]
      exact digits_begins_value n.toInt.natAbs

/-! ### Lists -/

/-- Texts behind a comma each. -/
def commaLed (xs : List (List Char)) : List Char := xs.flatMap fun x => ',' :: x

theorem commaSeparated_cons (x : List Char) (xs : List (List Char)) :
    commaSeparated (x :: xs) = x ++ commaLed xs := by
  induction xs generalizing x with
  | nil => exact (List.append_nil x).symm
  | cons y ys ih =>
    rw [commaSeparated, ih]
    rfl

theorem length_le_commaLed (xs : List (List Char)) : xs.length ≤ (commaLed xs).length := by
  induction xs with
  | nil => exact Nat.le_refl 0
  | cons x xs ih =>
    rw [commaLed, List.flatMap_cons, List.length_append, ← commaLed]
    simp only [List.length_cons]
    omega

theorem follows_commaLed (xs : List (List Char)) {rest : List Char} (h : Follows rest) :
    Follows (commaLed xs ++ rest) := by
  cases xs with
  | nil => exact h
  | cons x xs => exact Or.inl rfl

variable {α : Type} [Readable α] [Writable α] [LawfulForm α]

theorem nextElement_close (first : Bool) (rest : List Char) :
    nextElement first (']' :: rest) = .ok (false, ']' :: rest) := by
  rw [nextElement, dropBlanks_cons (by decide)]
  rfl

theorem nextElement_first (a : α) (rest : List Char) :
    nextElement true (Writable.chars a ++ rest) = .ok (true, Writable.chars a ++ rest) := by
  obtain ⟨c, cs, hcs, hblank, hclose⟩ := LawfulForm.begins a
  rw [hcs, List.cons_append, nextElement, dropBlanks_cons hblank]
  dsimp only
  rw [if_neg hclose, if_pos rfl]

theorem nextElement_comma (a : α) (rest : List Char) :
    nextElement false (',' :: (Writable.chars a ++ rest))
      = .ok (true, Writable.chars a ++ rest) := by
  obtain ⟨c, cs, hcs, hblank, hclose⟩ := LawfulForm.begins a
  rw [hcs, List.cons_append, nextElement, dropBlanks_cons (by decide)]
  dsimp only
  rw [if_neg (by decide), if_neg (by decide), if_pos rfl, dropBlanks_cons hblank]
  dsimp only
  rw [if_neg hclose]

/-- The elements behind the first one are read back. -/
theorem readElements_commaLed (as : List α) {fuel : Nat} (hfuel : as.length < fuel)
    (rest : List Char) :
    readElements fuel false (commaLed (as.map Writable.chars) ++ ']' :: rest)
      = .ok (as, ']' :: rest) := by
  induction as generalizing fuel with
  | nil =>
    obtain ⟨fuel, rfl⟩ := Nat.exists_eq_succ_of_ne_zero (Nat.ne_of_gt hfuel)
    show readElements (fuel + 1) false (']' :: rest) = _
    rw [readElements, nextElement_close]
    rfl
  | cons a as ih =>
    obtain ⟨fuel, rfl⟩ := Nat.exists_eq_succ_of_ne_zero (Nat.ne_of_gt (Nat.zero_lt_of_lt hfuel))
    have hrest := ih (Nat.lt_of_succ_lt_succ hfuel)
    have hfollows : Follows (commaLed (as.map Writable.chars) ++ ']' :: rest) :=
      follows_commaLed _ (Or.inr (Or.inl rfl))
    have htext : commaLed ((a :: as).map Writable.chars) ++ ']' :: rest
        = ',' :: (Writable.chars a ++ (commaLed (as.map Writable.chars) ++ ']' :: rest)) := by
      simp [commaLed]
    rw [htext, readElements, nextElement_comma]
    simp only [bind, Except.bind, if_true, LawfulForm.read_chars a hfollows, hrest]
    rfl

theorem closeArray_bracket (rest : List Char) : closeArray (']' :: rest) = .ok rest := by
  rw [closeArray, dropBlanks_cons (by decide)]
  rfl

theorem arrayChars_append (xs : List (List Char)) (rest : List Char) :
    arrayChars xs ++ rest = '[' :: (commaSeparated xs ++ ']' :: rest) := by
  simp [arrayChars]

/-- All elements are read back. -/
theorem readElements_commaSeparated (as : List α) {fuel : Nat} (hfuel : as.length < fuel)
    (rest : List Char) :
    readElements fuel true (commaSeparated (as.map Writable.chars) ++ ']' :: rest)
      = .ok (as, ']' :: rest) := by
  obtain ⟨fuel, rfl⟩ := Nat.exists_eq_succ_of_ne_zero (Nat.ne_of_gt (Nat.zero_lt_of_lt hfuel))
  cases as with
  | nil =>
    show readElements (fuel + 1) true (']' :: rest) = _
    rw [readElements, nextElement_close]
    rfl
  | cons a as =>
    have hrest := readElements_commaLed as (Nat.lt_of_succ_lt_succ hfuel) rest
    have hfollows : Follows (commaLed (as.map Writable.chars) ++ ']' :: rest) :=
      follows_commaLed _ (Or.inr (Or.inl rfl))
    rw [List.map_cons, commaSeparated_cons, List.append_assoc, readElements, nextElement_first]
    simp only [bind, Except.bind, if_true, LawfulForm.read_chars a hfollows, hrest]
    rfl

/-- The fuel that a reader takes for a list of parts is enough. -/
theorem length_lt_fuel (xs : List (List Char)) (close : Char) (rest : List Char) :
    xs.length < (commaSeparated xs ++ close :: rest).length + 1 := by
  cases xs with
  | nil => exact Nat.succ_pos _
  | cons x xs =>
    have hlength := length_le_commaLed xs
    rw [commaSeparated_cons]
    simp only [List.length_append, List.length_cons]
    omega

instance : LawfulForm (List α) where
  read_chars as rest _ := by
    have hfuel := length_lt_fuel (as.map Writable.chars) ']' rest
    rw [List.length_map] at hfuel
    have hread := readElements_commaSeparated as hfuel rest
    show Readable.read (arrayChars (as.map Writable.chars) ++ rest) = _
    rw [arrayChars_append]
    show (do
      let r ← (readElements _ true (commaSeparated (as.map Writable.chars) ++ ']' :: rest) :
        Except JsonError (List α × List Char))
      return (r.1, ← closeArray r.2)) = _
    rw [hread]
    simp only [bind, Except.bind, closeArray_bracket]
    rfl
  begins as := ⟨'[', _, rfl, by decide, by decide⟩

/-! ### Records -/

namespace RecordShape

variable {δ β : Type} {r : RecordShape δ β}

/-- A member that was written, read into the draft `d`, makes it `d'`. -/
def Takes (r : RecordShape δ β) (m : List Char) (d d' : δ) : Prop :=
  ∀ rest, Follows rest → ∃ cs key cs', m ++ rest = '"' :: cs ∧ stringRest cs = .ok (key, cs') ∧
    r.readMember key d cs' = .ok (d', rest)

/-- Members that were written, read one after the other. -/
inductive Fills (r : RecordShape δ β) : List (List Char) → δ → δ → Prop
  | nil {d} : Fills r [] d d
  | cons {m ms d d₁ d'} : r.Takes m d d₁ → Fills r ms d₁ d' → Fills r (m :: ms) d d'

/-- A member fills its field if the draft does not have that yet. -/
theorem takes_member {key : String} {get : δ → Option α} {set : α → δ → δ}
    (hfield : (r.fields.find? fun f => f.name == key) = some (.of key get set)) {d : δ}
    (hnew : get d = none) (a : α) : r.Takes (member key a) d (set a d) := by
  intro rest hrest
  have htext : member key a ++ rest
      = '"' :: (key.toList.flatMap escaped ++ '"' :: ':' :: (Writable.chars a ++ rest)) := by
    simp [member, stringChars]
  refine ⟨_, key, _, htext, stringRest_escaped key _, ?_⟩
  have hset : (FieldShape.of key get set).isSet d = false := by
    show (get d).isSome = false
    rw [hnew]
    rfl
  rw [readMember, hfield]
  dsimp only
  rw [readField, hset, if_neg (by decide), colon, dropBlanks_cons (by decide)]
  show (Readable.read (Writable.chars a ++ rest) >>= fun r => pure (set r.1 d, r.2)) = _
  rw [LawfulForm.read_chars a hrest]
  rfl

theorem nextKey_close (first : Bool) (rest : List Char) :
    nextKey first ('}' :: rest) = .ok none := by
  rw [nextKey, dropBlanks_cons (by decide)]
  rfl

theorem nextKey_first (rest : List Char) : nextKey true ('"' :: rest) = .ok (some rest) := by
  rw [nextKey, dropBlanks_cons (by decide)]
  rfl

theorem nextKey_comma (rest : List Char) :
    nextKey false (',' :: '"' :: rest) = .ok (some rest) := by
  rw [nextKey, dropBlanks_cons (by decide)]
  dsimp only
  rw [if_neg (by decide), if_neg (by decide), if_pos rfl, dropBlanks_cons (by decide)]
  rfl

/-- The members behind the first one are read back. -/
theorem readMembers_commaLed {ms : List (List Char)} {d d' : δ} (h : r.Fills ms d d')
    {fuel : Nat} (hfuel : ms.length < fuel) (rest : List Char) :
    r.readMembers fuel false d (commaLed ms ++ '}' :: rest) = .ok (d', '}' :: rest) := by
  induction h generalizing fuel with
  | nil =>
    obtain ⟨fuel, rfl⟩ := Nat.exists_eq_succ_of_ne_zero (Nat.ne_of_gt hfuel)
    show r.readMembers (fuel + 1) false _ ('}' :: rest) = _
    rw [readMembers, nextKey_close]
    rfl
  | @cons m ms d d₁ d' htakes hfills ih =>
    obtain ⟨fuel, rfl⟩ := Nat.exists_eq_succ_of_ne_zero (Nat.ne_of_gt (Nat.zero_lt_of_lt hfuel))
    have hrest := ih (Nat.lt_of_succ_lt_succ hfuel)
    have hfollows : Follows (commaLed ms ++ '}' :: rest) :=
      follows_commaLed _ (Or.inr (Or.inr rfl))
    obtain ⟨cs, key, cs', hm, hkey, hread⟩ := htakes _ hfollows
    have htext : commaLed (m :: ms) ++ '}' :: rest = ',' :: '"' :: cs := by
      rw [← hm]
      simp [commaLed]
    rw [htext, readMembers, nextKey_comma]
    simp only [bind, Except.bind, hkey, hread, hrest]

theorem objectChars_append (ms : List (List Char)) (rest : List Char) :
    objectChars ms ++ rest = '{' :: (commaSeparated ms ++ '}' :: rest) := by
  simp [objectChars]

/-- All members are read back. -/
theorem readMembers_commaSeparated {ms : List (List Char)} {d d' : δ} (h : r.Fills ms d d')
    {fuel : Nat} (hfuel : ms.length < fuel) (rest : List Char) :
    r.readMembers fuel true d (commaSeparated ms ++ '}' :: rest) = .ok (d', '}' :: rest) := by
  obtain ⟨fuel, rfl⟩ := Nat.exists_eq_succ_of_ne_zero (Nat.ne_of_gt (Nat.zero_lt_of_lt hfuel))
  cases h with
  | nil =>
    show r.readMembers (fuel + 1) true _ ('}' :: rest) = _
    rw [readMembers, nextKey_close]
    rfl
  | @cons m ms _ d₁ _ htakes hfills =>
    have hrest := readMembers_commaLed hfills (Nat.lt_of_succ_lt_succ hfuel) rest
    have hfollows : Follows (commaLed ms ++ '}' :: rest) :=
      follows_commaLed _ (Or.inr (Or.inr rfl))
    obtain ⟨cs, key, cs', hm, hkey, hread⟩ := htakes _ hfollows
    rw [commaSeparated_cons, List.append_assoc, hm, readMembers, nextKey_first]
    simp only [bind, Except.bind, hkey, hread, hrest]

/-- A record is read back from its members if they fill the draft that it
completes. -/
theorem read_objectChars {ms : List (List Char)} {d : δ} {b : β} (h : r.Fills ms r.start d)
    (hcomplete : r.complete d = .ok b) (rest : List Char) :
    r.read (objectChars ms ++ rest) = .ok (b, rest) := by
  have hmembers := readMembers_commaSeparated h (length_lt_fuel ms '}' rest) rest
  have hfinish : r.finishObject d = .ok b := by
    rw [finishObject, hcomplete]
    rfl
  have hclose : closeObject ('}' :: rest) = .ok rest := by
    rw [closeObject, dropBlanks_cons (by decide)]
    rfl
  rw [objectChars_append, read, dropBlanks_cons (by decide)]
  simp only [bind, Except.bind, hmembers, hfinish, hclose]
  rfl

end RecordShape

theorem objectChars_begins (ms : List (List Char)) :
    ∃ c cs, objectChars ms = c :: cs ∧ isBlank c = false ∧ c ≠ ']' :=
  ⟨'{', commaSeparated ms ++ ['}'], rfl, by decide, by decide⟩

open RecordShape in
instance : LawfulForm Params where
  read_chars _ rest _ := by
    apply read_objectChars (r := Params.shape)
    · apply Fills.cons (takes_member rfl rfl _)
      apply Fills.cons (takes_member rfl rfl _)
      apply Fills.cons (takes_member rfl rfl _)
      exact Fills.nil
    · rfl
  begins _ := objectChars_begins _

open RecordShape in
instance : LawfulForm DepositGenesis where
  read_chars _ rest _ := by
    apply read_objectChars (r := DepositGenesis.shape)
    · apply Fills.cons (takes_member rfl rfl _)
      apply Fills.cons (takes_member rfl rfl _)
      exact Fills.nil
    · rfl
  begins _ := objectChars_begins _

open RecordShape in
instance : LawfulForm Validator where
  read_chars _ rest _ := by
    apply read_objectChars (r := Validator.shape)
    · apply Fills.cons (takes_member rfl rfl _)
      apply Fills.cons (takes_member rfl rfl _)
      apply Fills.cons (takes_member rfl rfl _)
      apply Fills.cons (takes_member rfl rfl _)
      apply Fills.cons (takes_member rfl rfl _)
      apply Fills.cons (takes_member rfl rfl _)
      exact Fills.nil
    · rfl
  begins _ := objectChars_begins _

open RecordShape in
instance : LawfulForm RegistryGenesis where
  read_chars _ rest _ := by
    apply read_objectChars (r := RegistryGenesis.shape)
    · apply Fills.cons (takes_member rfl rfl _)
      exact Fills.nil
    · rfl
  begins _ := objectChars_begins _

open RecordShape in
instance : LawfulForm HookGenesis where
  read_chars _ rest _ := by
    apply read_objectChars (r := HookGenesis.shape)
    · apply Fills.cons (takes_member rfl rfl _)
      apply Fills.cons (takes_member rfl rfl _)
      exact Fills.nil
    · rfl
  begins _ := objectChars_begins _

/-! ### Whole texts -/

/-- A value is read back from its text. -/
theorem parse_text (a : α) : parse (text a) = .ok a := by
  have hend : Follows [] := trivial
  have hread := LawfulForm.read_chars a hend
  rw [List.append_nil] at hread
  rw [parse, text, String.toList_ofList, readChars, hread]
  rfl

end Json

/-- A valid genesis is read back from its text. -/
theorem HookGenesis.ofJson_text {g : HookGenesis} (h : g.validate = .ok ()) :
    ofJson (Json.text g) = .ok g := by
  rw [ofJson, Json.parse_text]
  show (do g.validate; return g) = _
  rw [h]
  rfl

end BlockHooks
