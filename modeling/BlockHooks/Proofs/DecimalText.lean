/-
BlockHooks/Proofs/DecimalText.lean

Which texts are decimals, and that decimals are read back from theirs.

A text is a decimal if it is spelt like one (`Dec.Spelt`): then its digits
are read, and only their value can be too large (`Dec.parse_of_spelt`), while
every other text is refused as it is (`Dec.parse_of_not_spelt`).

The digits of a number carry no leading zero (`eq_nil_of_digits_eq_zero_cons`),
and those of a fraction are filled up to exactly as many places as there are
(`length_paddedDigits`).  So a decimal is written the way decimals are spelt
(`Dec.spelt_text`), and reading puts the same value together again
(`Dec.parse_text`).
-/
import BlockHooks.Decimal.Text

namespace BlockHooks

/-! ### Digits -/

theorem isDigit_of_mem_digits {n : Nat} {c : Char} (h : c ∈ digits n) : c.isDigit = true :=
  Nat.isDigit_of_mem_toDigits (by decide) (by decide) h

/-- Only zero begins with a zero, and it is its only digit. -/
theorem eq_nil_of_digits_eq_zero_cons {n : Nat} {cs : List Char} (h : digits n = '0' :: cs) :
    cs = [] := by
  -- on the number, a digit at its end being taken off
  induction n using Nat.strongRecOn generalizing cs with
  | ind n ih =>
    by_cases hsmall : n < 10
    · rw [digits, Nat.toDigits_of_lt_base hsmall] at h
      exact (List.cons.inj h).2.symm
    · have hsplit : digits n = digits (n / 10) ++ [(n % 10).digitChar] :=
        Nat.toDigits_of_base_le (by decide) (Nat.not_lt.1 hsmall)
      obtain ⟨front, hfront⟩ : ∃ front, digits (n / 10) = '0' :: front := by
        rw [hsplit] at h
        rcases e : digits (n / 10) with - | ⟨c, front⟩
        · exact absurd e Nat.toDigits_ne_nil
        · rw [e] at h
          exact ⟨front, by rw [(List.cons.inj h).1]⟩
      -- the other digits would be a lone zero, but they write a positive number
      have hlone := ih (n / 10) (by omega) hfront
      have hzero : n / 10 = ofDigits ['0'] := by
        rw [← ofDigits_digits (n / 10), hfront, hlone]
      rw [show ofDigits ['0'] = 0 from rfl] at hzero
      omega

theorem isDigit_of_mem_paddedDigits {width n : Nat} {c : Char} (h : c ∈ paddedDigits width n) :
    c.isDigit = true := by
  rcases List.mem_append.1 h with h | h
  · rw [List.eq_of_mem_replicate h]
    rfl
  · exact isDigit_of_mem_digits h

theorem length_paddedDigits {width n : Nat} (hwidth : 0 < width) (h : n < Nat.pow 10 width) :
    (paddedDigits width n).length = width := by
  have hlength : (digits n).length ≤ width :=
    (Nat.length_toDigits_le_iff (by decide) hwidth).2 h
  rw [paddedDigits, List.length_append, List.length_replicate]
  omega

/-- Zeros on the left do not count. -/
theorem ofDigits_paddedDigits (width n : Nat) : ofDigits (paddedDigits width n) = n := by
  have hzeros : Nat.ofDigitChars 10 (List.replicate (width - (digits n).length) '0') 0 = 0 :=
    Nat.ofDigitChars_replicate_zero
  rw [ofDigits, paddedDigits, Nat.ofDigitChars_append, hzeros]
  exact ofDigits_digits n

namespace Dec

theorem scale_eq : scale = Nat.pow 10 places := by
  decide

/-! ### Whole texts -/

/-- A fraction takes up all places. -/
theorem length_fractionDigits (d : Dec) :
    (paddedDigits places d.fraction.raw).length = places := by
  apply length_paddedDigits (by decide)
  rw [← scale_eq]
  exact d.fraction_raw_lt

/-- A decimal is read back from its digits. -/
theorem valueOf_digits (d : Dec) :
    valueOf (digits d.whole) (paddedDigits places d.fraction.raw) = d.raw := by
  rw [valueOf, length_fractionDigits, Nat.sub_self, ofDigits_digits, ofDigits_paddedDigits]
  show d.whole * scale + d.fraction.raw * 1 = d.raw
  rw [Nat.mul_one, Nat.mul_comm]
  exact d.whole_mul_scale_add_fraction

/-! ### Spelling -/

/-- The ways to spell a decimal, with the digits before and after the point:
digits without a point, or with a point that one to eighteen of them follow.
There may be no digit in front of the point. -/
inductive Spelt : List Char → List Char → List Char → Prop
  | whole {whole : List Char} (hsome : whole ≠ []) (hdigits : ∀ c ∈ whole, c.isDigit = true) :
      Spelt whole whole []
  | point {whole frac : List Char} (hsome : frac ≠ []) (hlength : frac.length ≤ 18)
      (hdigits : ∀ c ∈ whole ++ frac, c.isDigit = true) :
      Spelt (whole ++ '.' :: frac) whole frac

variable {s : String} {whole frac : List Char}

theorem point_not_mem (h : ∀ c ∈ whole, c.isDigit = true) : '.' ∉ whole := fun hmem =>
  absurd (h _ hmem) (by decide)

theorem ofParts_of_digits (hsome : ¬ (whole = [] ∧ frac = [])) (hlength : frac.length ≤ places)
    (hdigits : ∀ c ∈ whole ++ frac, c.isDigit = true) :
    ofParts s whole frac = ofRaw? (valueOf whole frac) := by
  rw [ofParts, if_neg hsome, List.all_eq_true.2 hdigits, if_neg (by decide),
    if_neg (Nat.not_lt.2 hlength)]

/-- Parts that are not read are not the digits that they should be. -/
theorem ofParts_cases (s : String) (whole frac : List Char) :
    (∃ reason, ofParts s whole frac = .error (.invalidDecimal s reason)) ∨
      ¬ (whole = [] ∧ frac = []) ∧ frac.length ≤ places ∧
        ∀ c ∈ whole ++ frac, c.isDigit = true := by
  unfold ofParts
  split
  next => exact Or.inl ⟨_, rfl⟩
  next hsome =>
    split
    next => exact Or.inl ⟨_, rfl⟩
    next hdigits =>
      split
      next => exact Or.inl ⟨_, rfl⟩
      next hlength =>
        refine Or.inr ⟨hsome, Nat.not_lt.1 hlength, ?_⟩
        simpa only [Bool.not_eq_true', Bool.not_eq_false, List.all_eq_true] using hdigits

/-- What is spelt like a decimal has a value, which may be too large. -/
theorem parse_of_spelt (h : Spelt s.toList whole frac) :
    parse s = ofRaw? (valueOf whole frac) := by
  generalize hs : s.toList = cs at h
  cases h with
  | whole hsome hdigits =>
    have hsplit : splitAtFirst '.' whole = none :=
      splitAtFirst_eq_none_iff.2 (point_not_mem hdigits)
    rw [parse, hs, hsplit]
    exact ofParts_of_digits (fun h => hsome h.1) (by decide) (by simpa using hdigits)
  | point hsome hlength hdigits =>
    have hsplit : splitAtFirst '.' (whole ++ '.' :: frac) = some (whole, frac) :=
      splitAtFirst_eq_some_iff.2
        ⟨rfl, point_not_mem fun c hc => hdigits c (List.mem_append_left _ hc)⟩
    have hparts : ofParts s whole frac = ofRaw? (valueOf whole frac) :=
      ofParts_of_digits (fun h => hsome h.2) hlength hdigits
    rw [parse, hs, hsplit]
    -- digits follow the point, which is the second of three cases
    cases frac with
    | nil => exact absurd rfl hsome
    | cons c cs => exact hparts

/-- What is not spelt like a decimal is refused. -/
theorem parse_of_not_spelt (h : ¬ ∃ whole frac, Spelt s.toList whole frac) :
    ∃ reason, parse s = .error (.invalidDecimal s reason) := by
  rw [parse]
  rcases hsplit : splitAtFirst '.' s.toList with - | ⟨whole, - | ⟨c, cs⟩⟩
  · refine (ofParts_cases s s.toList []).resolve_right fun ⟨hsome, _, hdigits⟩ => ?_
    rw [List.append_nil] at hdigits
    exact h ⟨_, _, .whole (fun hnil => hsome ⟨hnil, rfl⟩) hdigits⟩
  · exact ⟨_, rfl⟩
  · refine (ofParts_cases s whole (c :: cs)).resolve_right fun ⟨_, hlength, hdigits⟩ => ?_
    have hspelt : Spelt (whole ++ '.' :: c :: cs) whole (c :: cs) :=
      .point (List.cons_ne_nil c cs) hlength hdigits
    rw [← (splitAtFirst_eq_some_iff.1 hsplit).1] at hspelt
    exact h ⟨_, _, hspelt⟩

theorem spelt_text (d : Dec) :
    Spelt d.text.toList (digits d.whole) (paddedDigits places d.fraction.raw) := by
  have hlength := length_fractionDigits d
  rw [text, String.toList_ofList]
  refine .point (fun hnil => ?_) (Nat.le_of_eq hlength) fun c hc => ?_
  · rw [hnil] at hlength
    cases hlength
  · rcases List.mem_append.1 hc with hc | hc
    · exact isDigit_of_mem_digits hc
    · exact isDigit_of_mem_paddedDigits hc

theorem parse_text (d : Dec) : parse d.text = .ok d := by
  rw [parse_of_spelt (spelt_text d), valueOf_digits]
  exact ofRaw?_of_lt d.raw_lt

end Dec

end BlockHooks
