/-
BlockHooks/Proofs/DecimalSpelling.lean

What the spelling of a decimal is worth, and which spelling is written.

Digits count by their position (`positional`).  A text is read exactly if it
is spelt like a decimal and what it is worth fits, and it is read as what it
is worth; a spelling that is worth too much is an overflow, and every other
text is refused with the text itself in the error (`Dec.parse_spelling`).

Digits are told apart by what they are worth and how many they are
(`eq_of_positional_eq`), and without a leading zero their number is known as
well (`digits_positional`).  So of all spellings of a decimal just one is
canonical (`Dec.Canonical`), and it is the one that is written
(`Dec.text_canonical`).
-/
import Mathlib
import BlockHooks.Proofs.JsonForms

namespace BlockHooks

/-! ### Digits by position -/

/-- The number that a digit stands for. -/
def digitValue (c : Char) : ℕ := c.toNat - '0'.toNat

/-- The number that decimal digits write; the last one counts units. -/
def positional (cs : List Char) : ℕ := Nat.ofDigits 10 (cs.reverse.map digitValue)

theorem digitValue_lt {c : Char} (h : c.isDigit = true) : digitValue c < 10 := by
  have hrange : 48 ≤ c.toNat ∧ c.toNat ≤ 57 := Char.isDigit_iff_toNat.1 h
  show c.toNat - 48 < 10
  omega

theorem digitChar_digitValue {c : Char} (h : c.isDigit = true) : (digitValue c).digitChar = c := by
  have hrange : 48 ≤ c.toNat ∧ c.toNat ≤ 57 := Char.isDigit_iff_toNat.1 h
  rw [← Char.toNat_inj, Nat.toNat_digitChar_of_lt_ten (digitValue_lt h)]
  show 48 + (c.toNat - 48) = c.toNat
  omega

/-- Reading digits one by one adds them up by position. -/
theorem ofDigits_eq_positional (cs : List Char) : ofDigits cs = positional cs := by
  -- from the end, where the units are
  induction cs using List.reverseRecOn with
  | nil => rfl
  | append_singleton cs c ih =>
    have hlast : ofDigits (cs ++ [c]) = 10 * ofDigits cs + digitValue c := by
      rw [ofDigits, Nat.ofDigitChars_append, Nat.ofDigitChars_cons, Nat.ofDigitChars_nil]
      rfl
    rw [hlast, ih, positional, positional, List.reverse_append, List.map_append]
    exact (Nat.add_comm ..).trans (Nat.ofDigits_cons ..).symm

variable {cs ds : List Char}

theorem digitValue_lt_of_mem (h : ∀ c ∈ cs, c.isDigit = true) :
    ∀ n ∈ cs.reverse.map digitValue, n < 10 := by
  intro n hn
  obtain ⟨c, hc, rfl⟩ := List.mem_map.1 hn
  exact digitValue_lt (h c (List.mem_reverse.1 hc))

theorem positional_lt (h : ∀ c ∈ cs, c.isDigit = true) : positional cs < 10 ^ cs.length := by
  have hlt := Nat.ofDigits_lt_base_pow_length (by decide) (digitValue_lt_of_mem h)
  rwa [List.length_map, List.length_reverse] at hlt

theorem positional_cons (c : Char) (cs : List Char) :
    positional (c :: cs) = positional cs + 10 ^ cs.length * digitValue c := by
  rw [positional, List.reverse_cons, List.map_append, Nat.ofDigits_append, List.length_map,
    List.length_reverse]
  exact congrArg _ (congrArg _ Nat.ofDigits_singleton)

/-- As many digits that are worth the same are the same. -/
theorem eq_of_positional_eq (hcs : ∀ c ∈ cs, c.isDigit = true) (hds : ∀ c ∈ ds, c.isDigit = true)
    (hlength : cs.length = ds.length) (h : positional cs = positional ds) : cs = ds := by
  -- a digit is determined by what it is worth
  have hback : ∀ es : List Char, (∀ c ∈ es, c.isDigit = true) →
      (es.reverse.map digitValue).map Nat.digitChar = es.reverse := by
    intro es hes
    rw [List.map_map]
    refine (List.map_congr_left fun c hc => ?_).trans (List.map_id' _)
    exact digitChar_digitValue (hes c (List.mem_reverse.1 hc))
  have hvalues : cs.reverse.map digitValue = ds.reverse.map digitValue :=
    Nat.ofDigits_inj_of_len_eq (by decide) (by simpa using hlength)
      (digitValue_lt_of_mem hcs) (digitValue_lt_of_mem hds) h
  rw [← List.reverse_inj, ← hback cs hcs, ← hback ds hds, hvalues]

/-- Digits that do not begin with a zero are those of the number they write;
so is a zero alone. -/
theorem digits_positional (hsome : cs ≠ []) (hcs : ∀ c ∈ cs, c.isDigit = true)
    (hlead : cs = ['0'] ∨ cs.head? ≠ some '0') : digits (positional cs) = cs := by
  rcases hlead with rfl | hlead
  · decide
  obtain ⟨c, rest, rfl⟩ := List.exists_cons_of_ne_nil hsome
  have hpositive : 0 < digitValue c := by
    refine Nat.pos_of_ne_zero fun hzero => hlead ?_
    rw [List.head?_cons, ← digitChar_digitValue (hcs c List.mem_cons_self), hzero]
    rfl
  -- the first digit counts, so that no shorter text writes the same number
  have hlower : 10 ^ rest.length ≤ positional (c :: rest) := by
    rw [positional_cons]
    exact (Nat.le_mul_of_pos_right _ hpositive).trans (Nat.le_add_left _ _)
  have hatMost : (digits (positional (c :: rest))).length ≤ rest.length + 1 :=
    (Nat.length_toDigits_le_iff (by decide) rest.length.succ_pos).2 (positional_lt hcs)
  have hatLeast : rest.length < (digits (positional (c :: rest))).length := by
    rcases Nat.eq_zero_or_pos rest.length with hnone | hmore
    · rw [hnone]
      exact Nat.length_toDigits_pos
    · rw [← Nat.not_le, digits, Nat.length_toDigits_le_iff (by decide) hmore]
      exact Nat.not_lt.2 hlower
  refine eq_of_positional_eq (fun c hc => isDigit_of_mem_digits hc) hcs ?_ ?_
  · rw [List.length_cons]
    omega
  · rw [← ofDigits_eq_positional, ofDigits_digits]

theorem paddedDigits_positional (hsome : 0 < cs.length) (hcs : ∀ c ∈ cs, c.isDigit = true) :
    paddedDigits cs.length (positional cs) = cs := by
  refine eq_of_positional_eq (fun c hc => isDigit_of_mem_paddedDigits hc) hcs ?_ ?_
  · exact length_paddedDigits hsome (positional_lt hcs)
  · rw [← ofDigits_eq_positional, ofDigits_paddedDigits]

namespace Dec

/-! ### Reading -/

/-- What digits before and after the point are worth, in units of 10⁻¹⁸. -/
def worth (whole frac : List Char) : ℕ :=
  positional whole * 10 ^ 18 + positional frac * 10 ^ (18 - frac.length)

theorem valueOf_eq_worth (whole frac : List Char) : valueOf whole frac = worth whole frac := by
  rw [valueOf, worth, ofDigits_eq_positional, ofDigits_eq_positional]
  rfl

theorem parse_eq_ofRaw?_worth {s : String} {whole frac : List Char}
    (h : Spelt s.toList whole frac) : parse s = ofRaw? (worth whole frac) := by
  rw [parse_of_spelt h, valueOf_eq_worth]

/-- Only what is not spelt like a decimal is refused as it is. -/
theorem exists_spelt {s : String} (h : ∀ reason, parse s ≠ .error (.invalidDecimal s reason)) :
    ∃ whole frac, Spelt s.toList whole frac := by
  by_contra hspelt
  obtain ⟨reason, hrefused⟩ := parse_of_not_spelt hspelt
  exact h reason hrefused

theorem parse_eq_ok_iff {s : String} {d : Dec} :
    parse s = .ok d ↔ ∃ whole frac, Spelt s.toList whole frac ∧ d.raw = worth whole frac := by
  constructor
  · intro h
    obtain ⟨whole, frac, hspelt⟩ := exists_spelt (s := s) (by simp [h])
    rw [parse_eq_ofRaw?_worth hspelt, ofRaw?_eq_ok_iff] at h
    exact ⟨whole, frac, hspelt, h⟩
  · rintro ⟨whole, frac, hspelt, hraw⟩
    rw [parse_eq_ofRaw?_worth hspelt, ofRaw?_eq_ok_iff]
    exact hraw

theorem parse_eq_overflow_iff {s : String} :
    parse s = .error .overflow ↔
      ∃ whole frac, Spelt s.toList whole frac ∧ 2 ^ 128 ≤ worth whole frac := by
  constructor
  · intro h
    obtain ⟨whole, frac, hspelt⟩ := exists_spelt (s := s) (by simp [h])
    rw [parse_eq_ofRaw?_worth hspelt, ofRaw?_eq_error_iff, bound_eq] at h
    exact ⟨whole, frac, hspelt, h.1⟩
  · rintro ⟨whole, frac, hspelt, hlarge⟩
    rw [parse_eq_ofRaw?_worth hspelt, ofRaw?_eq_error_iff, bound_eq]
    exact ⟨hlarge, rfl⟩

theorem parse_eq_invalidDecimal_iff {s : String} :
    (∃ reason, parse s = .error (.invalidDecimal s reason)) ↔
      ¬ ∃ whole frac, Spelt s.toList whole frac := by
  constructor
  · -- what is spelt like a decimal can only be too large
    rintro ⟨reason, h⟩ ⟨whole, frac, hspelt⟩
    rw [parse_eq_ofRaw?_worth hspelt, ofRaw?_eq_error_iff] at h
    cases h.2
  · exact parse_of_not_spelt

/-- **Exactly the spellings of decimals are read, and as what they are
worth.**  A text is read as a decimal if and only if it is spelt like one and
what it is worth fits; leading zeros do not matter.  It is an overflow if and
only if it is spelt like a decimal and is worth too much.  Every text that is
not spelt like a decimal is refused, and the error carries it. -/
theorem parse_spelling (s : String) :
    (∀ d : Dec, parse s = .ok d ↔ ∃ whole frac, Spelt s.toList whole frac ∧
      worth whole frac < 2 ^ 128 ∧ d.raw = worth whole frac) ∧
    (parse s = .error .overflow ↔ ∃ whole frac, Spelt s.toList whole frac ∧
      2 ^ 128 ≤ worth whole frac) ∧
    ((∃ reason, parse s = .error (.invalidDecimal s reason)) ↔
      ¬ ∃ whole frac, Spelt s.toList whole frac) := by
  refine ⟨fun d => ?_, parse_eq_overflow_iff, parse_eq_invalidDecimal_iff⟩
  rw [parse_eq_ok_iff]
  constructor
  · rintro ⟨whole, frac, hspelt, hraw⟩
    have hfits := d.raw_lt
    rw [hraw, bound_eq] at hfits
    exact ⟨whole, frac, hspelt, hfits, hraw⟩
  · rintro ⟨whole, frac, hspelt, -, hraw⟩
    exact ⟨whole, frac, hspelt, hraw⟩

/-- The smallest text with all places that is worth too much. -/
example : parse "340282366920938463463.374607431768211456" = .error .overflow := by
  decide +kernel

/-! ### Writing -/

/-- The spelling of decimals as they are written: all eighteen places behind
the point, and before it a lone zero or digits that do not begin with one. -/
def Canonical (s : String) : Prop :=
  ∃ whole frac, Spelt s.toList whole frac ∧ frac.length = 18 ∧ whole ≠ [] ∧
    (whole = ['0'] ∨ whole.head? ≠ some '0')

theorem canonical_text (d : Dec) : Canonical d.text := by
  refine ⟨_, _, spelt_text d, length_fractionDigits d, Nat.toDigits_ne_nil, ?_⟩
  rcases hdigits : digits d.whole with - | ⟨c, cs⟩
  · exact absurd hdigits Nat.toDigits_ne_nil
  · by_cases hzero : c = '0'
    · subst hzero
      left
      rw [eq_nil_of_digits_eq_zero_cons hdigits]
    · right
      simpa using hzero

/-- Whole units and fraction of a decimal are what is written before and
behind the point. -/
theorem parts_of_raw_eq {d : Dec} {w f : ℕ} (hf : f < 10 ^ 18) (h : d.raw = w * 10 ^ 18 + f) :
    d.whole = w ∧ d.fraction.raw = f := by
  have hwhole := d.whole_mul_scale_add_fraction
  have hfraction := d.fraction_raw_lt
  simp only [scale] at hwhole hfraction
  omega

/-- A decimal that is read from a canonical text is written as that text. -/
theorem text_of_canonical {s : String} {d : Dec} (h : Canonical s) (hparse : parse s = .ok d) :
    d.text = s := by
  obtain ⟨whole, frac, hspelt, hlength, hsome, hlead⟩ := h
  rw [parse_eq_ofRaw?_worth hspelt, ofRaw?_eq_ok_iff, worth, hlength, Nat.sub_self, pow_zero,
    mul_one] at hparse
  rw [← String.toList_inj, text, String.toList_ofList, chars]
  generalize s.toList = cs at hspelt
  cases hspelt with
  | whole => cases hlength
  | point _ _ hdigits =>
    have hwhole : ∀ c ∈ whole, c.isDigit = true := fun c hc =>
      hdigits c (List.mem_append_left _ hc)
    have hfrac : ∀ c ∈ frac, c.isDigit = true := fun c hc =>
      hdigits c (List.mem_append_right _ hc)
    obtain ⟨hunits, hrest⟩ := parts_of_raw_eq (hlength ▸ positional_lt hfrac) hparse
    have hplaces : places = frac.length := hlength.symm
    rw [hunits, hrest, digits_positional hsome hwhole hlead, hplaces,
      paddedDigits_positional (by omega) hfrac]

/-! ### JSON -/

theorem mem_text {d : Dec} {c : Char} (h : c ∈ d.text.toList) : c.isDigit = true ∨ c = '.' := by
  rw [text, String.toList_ofList, chars, List.mem_append, List.mem_cons] at h
  rcases h with h | h | h
  · exact Or.inl (isDigit_of_mem_digits h)
  · exact Or.inr h
  · exact Or.inl (isDigit_of_mem_paddedDigits h)

/-- The form of a decimal is its text between quotes. -/
theorem toList_jsonText (d : Dec) : (Json.text d).toList = '"' :: d.text.toList ++ ['"'] := by
  have hplain : d.text.toList.flatMap Json.escaped = d.text.toList := by
    have hescaped : ∀ c ∈ d.text.toList, Json.escaped c = [c] := by
      intro c hc
      rcases mem_text hc with h | rfl
      · have hrange : 48 ≤ c.toNat ∧ c.toNat ≤ 57 := Char.isDigit_iff_toNat.1 h
        refine Json.escaped_of_plain (Json.ne_of_isDigit h (by decide))
          (Json.ne_of_isDigit h (by decide)) fun hcontrol => ?_
        have hsmall : c.toNat < 32 := hcontrol
        omega
      · decide
    rw [List.flatMap_congr hescaped, List.flatMap_singleton']
  rw [Json.text, String.toList_ofList]
  show Json.stringChars d.text = _
  rw [Json.stringChars, hplain]

/-- **The text of a decimal is lossless and canonical.**  A decimal is read
back from its text, and from its JSON form, which is the text between quotes.
Different decimals have different texts.  Of all the texts that a decimal is
read from, its own is the canonical one. -/
theorem text_canonical (d : Dec) :
    parse d.text = .ok d ∧
    (Json.text d).toList = '"' :: d.text.toList ++ ['"'] ∧ Json.parse (Json.text d) = .ok d ∧
    (∀ d' : Dec, d.text = d'.text → d = d') ∧
    ∀ s, parse s = .ok d → (d.text = s ↔ Canonical s) := by
  refine ⟨parse_text d, toList_jsonText d, Json.parse_text d, fun d' h => ?_, fun s hs => ?_⟩
  · have hread := parse_text d'
    rw [← h, parse_text d, Except.ok.injEq] at hread
    exact hread
  · constructor
    · rintro rfl
      exact canonical_text d
    · intro hcanonical
      exact text_of_canonical hcanonical hs

/-- A text with leading zeros and too few places is read, but it is not
the one that is written. -/
theorem text_canonical_sevenAndAHalf :
    ∃ d : Dec, parse "007.5" = .ok d ∧ parse "7.500000000000000000" = .ok d ∧
      d.text ≠ "007.5" ∧ d.text = "7.500000000000000000" ∧ ¬ Canonical "007.5" := by
  have hshort : parse "007.5" = .ok ⟨7500000000000000000, by decide⟩ := by
    decide +kernel
  have hfull : parse "7.500000000000000000" = .ok ⟨7500000000000000000, by decide⟩ := by
    decide +kernel
  obtain ⟨-, -, -, -, hcanonical⟩ := text_canonical ⟨7500000000000000000, by decide⟩
  have hwritten : (⟨7500000000000000000, by decide⟩ : Dec).text = "7.500000000000000000" := by
    rw [hcanonical _ hfull]
    have hspelt : Spelt (['7'] ++ '.' :: '5' :: List.replicate 17 '0') ['7']
        ('5' :: List.replicate 17 '0') :=
      .point (List.cons_ne_nil _ _) (by decide) (List.all_eq_true.1 (by decide))
    exact ⟨_, _, hspelt, by decide, by decide, by decide⟩
  have hother : (⟨7500000000000000000, by decide⟩ : Dec).text ≠ "007.5" := by
    rw [hwritten]
    decide
  exact ⟨_, hshort, hfull, hother, hwritten, fun h => hother ((hcanonical _ hshort).2 h)⟩

end Dec

end BlockHooks
