/-
BlockHooks/Proofs/JsonText.lean

Strings and whole numbers are read back from compact JSON text.

A string is read back character by character: whatever a character is
written as, reading that makes up the character again
(`stringBody_escaped`).  A number is read back if what follows cannot be
taken for more of it, which is so behind every value in compact text
(`Follows`), and a word is never so large that the readers refuse it.
-/
import BlockHooks.Json.Basic
import BlockHooks.Proofs.DecimalText

namespace BlockHooks

namespace Json

/-! ### Strings -/

theorem hexValue?_digitChar {k : Nat} (h : k < 16) : hexValue? k.digitChar = some k := by
  have hall : ∀ k < 16, hexValue? (Nat.digitChar k) = some k := by
    decide
  exact hall k h

/-- Four hexadecimal digits write a control character. -/
theorem escape_control {c : Char} (h : c < ' ') (cs : List Char) :
    escape false ('u' :: '0' :: '0' :: Nat.digitChar (c.toNat / 16) ::
      Nat.digitChar (c.toNat % 16) :: cs) = .ok (c, 5) := by
  have hsmall : c.toNat < 32 := h
  have hunit : codeUnit ('0' :: '0' :: Nat.digitChar (c.toNat / 16) ::
      Nat.digitChar (c.toNat % 16) :: cs) = .ok c.toNat := by
    have hzero : hexValue? '0' = some 0 := by
      decide
    rw [codeUnit, hzero, hexValue?_digitChar (by omega), hexValue?_digitChar (by omega)]
    show Except.ok (((0 * 16 + 0) * 16 + c.toNat / 16) * 16 + c.toNat % 16) = _
    congr 1
    omega
  have hleading : isLeading c.toNat = false := by
    simp [isLeading]
    omega
  have htrailing : isTrailing c.toNat = false := by
    simp [isTrailing]
    omega
  rw [escape, if_pos rfl, unicodeEscape, hunit]
  simp only [hleading, htrailing, Bool.false_eq_true, if_false, Char.ofNat_toNat]
  rfl

/-- An escape is read as the character it writes. -/
theorem stringBody_of_escape {c : Char} {n : Nat} {cs : List Char}
    (h : escape false cs = .ok (c, n)) :
    stringBody false ('\\' :: cs) = (stringBody false (cs.drop n)).map fun r => (c :: r.1, r.2) := by
  rw [stringBody, if_neg (by decide), if_pos rfl, h]
  dsimp only
  rcases stringBody false (cs.drop n) with e | ⟨ds, rest⟩ <;> rfl

/-- A letter behind a backslash is read as the character it stands for. -/
theorem stringBody_of_shortEscape {letter c : Char} (hletter : letter ≠ 'u')
    (h : shortEscape? letter = some c) (cs : List Char) :
    stringBody false ('\\' :: letter :: cs)
      = (stringBody false cs).map fun r => (c :: r.1, r.2) := by
  have hescape : escape false (letter :: cs) = .ok (c, 1) := by
    rw [escape, if_neg hletter, h]
  exact stringBody_of_escape hescape

/-- A character is read back from what it is written as. -/
theorem stringBody_escaped (c : Char) (cs : List Char) :
    stringBody false (escaped c ++ cs) = (stringBody false cs).map fun r => (c :: r.1, r.2) := by
  unfold escaped
  split
  next h => subst h; exact stringBody_of_shortEscape (by decide) rfl cs
  split
  next h => subst h; exact stringBody_of_shortEscape (by decide) rfl cs
  split
  next h => subst h; exact stringBody_of_shortEscape (by decide) rfl cs
  split
  next h => subst h; exact stringBody_of_shortEscape (by decide) rfl cs
  split
  next h => subst h; exact stringBody_of_shortEscape (by decide) rfl cs
  split
  next h => subst h; exact stringBody_of_shortEscape (by decide) rfl cs
  split
  next h => subst h; exact stringBody_of_shortEscape (by decide) rfl cs
  split
  next h => exact stringBody_of_escape (escape_control h cs)
  next hquote hbackslash _ _ _ _ _ hplain =>
    -- every other character stands for itself
    show stringBody false (c :: cs) = _
    rw [stringBody, if_neg hquote, if_neg hbackslash, if_neg hplain]
    rcases stringBody false cs with e | ⟨ds, rest⟩ <;> rfl

/-- A text is read back up to the closing quote. -/
theorem stringBody_flatMap_escaped (cs rest : List Char) :
    stringBody false (cs.flatMap escaped ++ '"' :: rest) = .ok (cs, rest) := by
  induction cs with
  | nil =>
    rw [List.flatMap_nil, List.nil_append, stringBody, if_pos rfl]
  | cons c cs ih =>
    rw [List.flatMap_cons, List.append_assoc, stringBody_escaped, ih]
    rfl

theorem stringRest_escaped (s : String) (rest : List Char) :
    stringRest (s.toList.flatMap escaped ++ '"' :: rest) = .ok (s, rest) := by
  rw [stringRest, stringBody_flatMap_escaped]
  show Except.ok (String.ofList s.toList, rest) = _
  rw [String.ofList_toList]

/-- Every other character stands for itself. -/
theorem escaped_of_plain {c : Char} (hquote : c ≠ '"') (hbackslash : c ≠ '\\')
    (hplain : ¬ c < ' ') : escaped c = [c] := by
  have hcontrol : ∀ d : Char, d < ' ' → c ≠ d := by
    rintro d hd rfl
    exact hplain hd
  rw [escaped, if_neg hquote, if_neg hbackslash, if_neg (hcontrol _ (by decide)),
    if_neg (hcontrol _ (by decide)), if_neg (hcontrol _ (by decide)),
    if_neg (hcontrol _ (by decide)), if_neg (hcontrol _ (by decide)), if_neg hplain]

theorem stringChars_append (s : String) (rest : List Char) :
    stringChars s ++ rest = '"' :: (s.toList.flatMap escaped ++ '"' :: rest) := by
  simp [stringChars]

theorem readString_stringChars (s : String) (rest : List Char) :
    readString (stringChars s ++ rest) = .ok (s, rest) := by
  rw [stringChars_append]
  exact stringRest_escaped s rest

/-! ### Numbers -/

/-- What may follow a value in compact text: nothing, a comma or a closing
bracket. -/
def Follows : List Char → Prop
  | [] => True
  | c :: _ => c = ',' ∨ c = ']' ∨ c = '}'

theorem spanDigits_append {ds rest : List Char} (hds : ∀ c ∈ ds, c.isDigit = true)
    (hrest : Follows rest) : spanDigits (ds ++ rest) = (ds, rest) := by
  have hstop : rest.takeWhile Char.isDigit = [] ∧ rest.dropWhile Char.isDigit = rest := by
    cases rest with
    | nil => exact ⟨rfl, rfl⟩
    | cons c cs =>
      have hc : c.isDigit = false := by
        rcases hrest with rfl | rfl | rfl <;> rfl
      exact ⟨List.takeWhile_cons_of_neg (by simp [hc]), List.dropWhile_cons_of_neg (by simp [hc])⟩
  rw [spanDigits, List.takeWhile_append_of_pos hds, List.dropWhile_append_of_pos hds, hstop.1,
    hstop.2, List.append_nil]

/-- The digits of a number are a number without a fraction. -/
theorem wholeDigits_digits (n : Nat) {rest : List Char} (hrest : Follows rest) :
    wholeDigits false (digits n ++ rest) = .ok (digits n, rest) := by
  have hsome : someDigits false (digits n ++ rest) = .ok (digits n, rest) := by
    rw [someDigits, spanDigits_append (fun c hc => isDigit_of_mem_digits hc) hrest]
    rcases e : digits n with - | ⟨c, cs⟩
    · exact absurd e Nat.toDigits_ne_nil
    · rfl
  rw [wholeDigits, hsome]
  split
  next h =>
    -- two digits or more do not begin with a zero
    rw [Except.ok.injEq, Prod.mk.injEq] at h
    cases eq_nil_of_digits_eq_zero_cons h.1
  next => rfl

theorem numeral_digits (n : Nat) {rest : List Char} (hrest : Follows rest) :
    numeral false (digits n ++ rest) = .ok (⟨digits n, [], 0, true⟩, rest) := by
  have hfraction : fractionDigits false rest = .ok (none, rest) := by
    rcases rest with - | ⟨c, cs⟩
    · rfl
    · rcases hrest with rfl | rfl | rfl <;> rfl
  have hexponent : exponentPart false rest = .ok (none, rest) := by
    rcases rest with - | ⟨c, cs⟩
    · rfl
    · rcases hrest with rfl | rfl | rfl <;> rfl
  simp only [numeral, wholeDigits_digits n hrest, bind, Except.bind, hfraction, hexponent]
  rfl

/-- Digits are not left over if the number they write is below 2⁶⁴. -/
theorem appendDigits_eq {n : Nat} {cs : List Char}
    (h : Nat.ofDigitChars 10 cs n < UInt64.size) :
    appendDigits n cs = (Nat.ofDigitChars 10 cs n, 0) := by
  -- on the digits; the number so far is at most the whole number
  induction cs generalizing n with
  | nil => rfl
  | cons c cs ih =>
    have hcons : Nat.ofDigitChars 10 (c :: cs) n
        = Nat.ofDigitChars 10 cs (Nat.ofDigitChars 10 [c] n) := by
      rw [← Nat.ofDigitChars_append]
      rfl
    have hle : Nat.ofDigitChars 10 [c] n ≤ Nat.ofDigitChars 10 (c :: cs) n := by
      rw [hcons, Nat.ofDigitChars_eq_ofDigitChars_zero (l := cs)]
      have hpos : 1 ≤ 10 ^ cs.length := Nat.one_le_pow _ _ (by decide)
      calc Nat.ofDigitChars 10 [c] n = 1 * Nat.ofDigitChars 10 [c] n := (Nat.one_mul _).symm
        _ ≤ 10 ^ cs.length * Nat.ofDigitChars 10 [c] n := Nat.mul_le_mul_right _ hpos
        _ ≤ _ := Nat.le_add_right _ _
    have hnext : Nat.ofDigitChars 10 [c] n < UInt64.size := Nat.lt_of_le_of_lt hle h
    rw [appendDigits]
    simp only [hnext, if_true]
    rw [hcons] at h ⊢
    exact ih h

/-- A number below 2⁶⁴ is far below the largest floating point number. -/
theorem overflows_eq_false {n : Nat} (h : n < UInt64.size) : Binary64.overflows n 0 = false := by
  have hlog : n.log2 < 64 := by
    by_cases hzero : n = 0
    · rw [hzero]
      decide
    · exact (Nat.log2_lt hzero).2 h
  have hplace : Binary64.lastPlace n ≤ 2 ^ 11 :=
    Nat.pow_le_pow_right (by decide) (by simp only [Binary64.precision]; omega)
  have hnearest : Binary64.nearest n < Binary64.bound := by
    have hround := Binary64.two_mul_nearest_le n
    have hbound : UInt64.size + 2 ^ 11 < Binary64.bound := by
      decide +kernel
    omega
  have hone : Binary64.nearest (Nat.pow 10 0) = 1 := Binary64.nearest_eq_self (by decide)
  rw [Binary64.overflows, hone, Nat.mul_one, decide_eq_false (Nat.not_le.2 hnearest),
    decide_eq_false (by decide), Bool.or_self, Bool.and_false]

theorem not_isTooLarge {n : Nat} (h : n < UInt64.size) :
    (⟨digits n, [], 0, true⟩ : Numeral).isTooLarge = false := by
  have hwritten : Nat.ofDigitChars 10 (digits n) 0 = n := ofDigits_digits n
  have hdigits : appendDigits 0 (digits n) = (n, 0) := by
    rw [appendDigits_eq (by rwa [hwritten]), hwritten]
  have hscaled : (⟨digits n, [], 0, true⟩ : Numeral).scaled = (n, 0) := by
    simp only [Numeral.scaled, hdigits]
    rfl
  rw [Numeral.isTooLarge, hscaled]
  exact overflows_eq_false h

/-- A number below 2⁶⁴ is read back from its digits. -/
theorem number_digits {n : Nat} (negative : Bool) (h : n < UInt64.size) {rest : List Char}
    (hrest : Follows rest) :
    number negative (digits n ++ rest)
      = .ok ((⟨digits n, [], 0, true⟩ : Numeral).value negative, rest) := by
  rw [number, numeral_digits n hrest]
  show (if _ then _ else _) = _
  rw [not_isTooLarge h]
  rfl

end Json

end BlockHooks
