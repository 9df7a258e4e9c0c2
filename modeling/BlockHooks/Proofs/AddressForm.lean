/-
BlockHooks/Proofs/AddressForm.lean

Which texts are addresses, and what their first part is.

An address is spelt as two words over the lowercase letters and the digits
with a `1` between them, the first word being free of ones
(`Address.Spelt`).  So the separator is the first `1`, whatever follows, and
a text has one first part at most: the one that is read off it
(`Address.firstPart_of_spelt`, `Address.Spelt.unique`).

Every other text is refused, for the first of three reasons that holds:
there is no text, it has a byte that is none of the alphabet's, or it is not
spelt so (`Address.validate_spelling`).  Whether one looks at the bytes or
at the characters makes no difference: a character outside ASCII begins with
a byte above all of the alphabet's (`Address.exists_lead_byte`).
-/
import Mathlib.Data.List.Basic
import BlockHooks.Address

namespace BlockHooks

/-! ### Characters and bytes -/

/-- The bytes of a text are those of its characters. -/
theorem utf8_eq_flatMap (s : String) : utf8 s = s.toList.flatMap String.utf8EncodeChar := by
  rw [utf8, ← String.utf8Encode_toList, List.utf8Encode, List.toList_data_toByteArray]

namespace Address

/-- The characters of an address. -/
def alphabet : String := "abcdefghijklmnopqrstuvwxyz0123456789"

/-- The code of a lowercase letter or of a digit. -/
def IsCode (n : Nat) : Prop := 97 ≤ n ∧ n ≤ 122 ∨ 48 ≤ n ∧ n ≤ 57

theorem mem_codes_iff {n : Nat} : n ∈ List.range' 97 26 ++ List.range' 48 10 ↔ IsCode n := by
  rw [List.mem_append, List.mem_range'_1, List.mem_range'_1, IsCode]
  omega

theorem mem_alphabet_iff {c : Char} : c ∈ alphabet.toList ↔ IsCode c.toNat := by
  have hcodes : alphabet.toList.map Char.toNat = List.range' 97 26 ++ List.range' 48 10 := by
    decide +kernel
  rw [← mem_codes_iff, ← hcodes]
  exact (List.mem_map_of_injective fun _ _ => Char.toNat_inj.1).symm

theorem mem_utf8_alphabet_iff {b : UInt8} : b ∈ utf8 alphabet ↔ IsCode b.toNat := by
  have hcodes : (utf8 alphabet).map UInt8.toNat = List.range' 97 26 ++ List.range' 48 10 := by
    decide +kernel
  rw [← mem_codes_iff, ← hcodes]
  exact (List.mem_map_of_injective fun _ _ => UInt8.toNat_inj.1).symm

theorem isAddressChar_iff {c : Char} : isAddressChar c = true ↔ c ∈ alphabet.toList := by
  rw [mem_alphabet_iff, isAddressChar, IsCode]
  simp only [Bool.or_eq_true, Bool.and_eq_true, decide_eq_true_eq, Char.le_def,
    UInt32.le_iff_toNat_le]
  exact Iff.rfl

/-- A character outside ASCII has a byte above all of the alphabet's. -/
theorem exists_lead_byte {c : Char} (h : ¬ c.toNat ≤ 127) :
    ∃ b ∈ String.utf8EncodeChar c, 192 ≤ b.toNat := by
  have hlead : ∀ n, 192 ≤ n → n < 256 → 192 ≤ (UInt8.ofNat n).toNat := by
    intro n hlow hhigh
    rwa [UInt8.toNat_ofNat_of_lt' hhigh]
  have hval : ¬ c.val.toNat ≤ 127 := h
  rw [String.utf8EncodeChar, if_neg hval]
  split
  · exact ⟨_, List.mem_cons_self, hlead _ (by omega) (by omega)⟩
  split
  · exact ⟨_, List.mem_cons_self, hlead _ (by omega) (by omega)⟩
  · exact ⟨_, List.mem_cons_self, hlead _ (by omega) (by omega)⟩

theorem forall_mem_utf8EncodeChar_iff {c : Char} :
    (∀ b ∈ String.utf8EncodeChar c, b ∈ utf8 alphabet) ↔ c ∈ alphabet.toList := by
  rw [mem_alphabet_iff]
  by_cases hascii : c.toNat ≤ 127
  · have hbyte : String.utf8EncodeChar c = [UInt8.ofNat c.toNat] := if_pos hascii
    rw [hbyte, List.forall_mem_singleton, mem_utf8_alphabet_iff,
      UInt8.toNat_ofNat_of_lt' (Nat.lt_of_le_of_lt hascii (by decide))]
  · obtain ⟨b, hb, hlead⟩ := exists_lead_byte hascii
    refine iff_of_false (fun h => ?_) fun h => ?_
    · have hcode : IsCode b.toNat := mem_utf8_alphabet_iff.1 (h b hb)
      rw [IsCode] at hcode
      omega
    · rw [IsCode] at h
      omega

/-- A text is over the alphabet if its bytes are. -/
theorem forall_mem_utf8_iff {s : String} :
    (∀ b ∈ utf8 s, b ∈ utf8 alphabet) ↔ ∀ c ∈ s.toList, c ∈ alphabet.toList := by
  rw [utf8_eq_flatMap, List.forall_mem_flatMap]
  exact forall₂_congr fun _ _ => forall_mem_utf8EncodeChar_iff

/-! ### Spelling -/

/-- Letters and digits, at least one. -/
structure IsWord (s : String) : Prop where
  ne_empty : s ≠ ""
  lettered : ∀ c ∈ s.toList, c ∈ alphabet.toList

/-- `s` is spelt like an address with the first part `p` and the data `d`. -/
structure Spelt (s p d : String) : Prop where
  text_eq : s = p ++ "1" ++ d
  first : IsWord p
  first_without_one : '1' ∉ p.toList
  data : IsWord d

theorem toList_spelt (p d : String) :
    (p ++ "1" ++ d).toList = p.toList ++ '1' :: d.toList := by
  rw [String.toList_append, String.toList_append, List.append_assoc]
  rfl

/-- The first part ends where the text is split at its first one. -/
theorem Spelt.splitAtFirst_eq {s p d : String} (h : Spelt s p d) :
    splitAtFirst '1' s.toList = some (p.toList, d.toList) := by
  rw [splitAtFirst_eq_some_iff, h.text_eq, toList_spelt]
  exact ⟨rfl, h.first_without_one⟩

theorem Spelt.unique {s p d p' d' : String} (h : Spelt s p d) (h' : Spelt s p' d') :
    p' = p ∧ d' = d := by
  have hsame := h'.splitAtFirst_eq
  rw [h.splitAtFirst_eq, Option.some.injEq, Prod.mk.injEq] at hsame
  exact ⟨(String.toList_inj.1 hsame.1).symm, (String.toList_inj.1 hsame.2).symm⟩

/-- An address is over the alphabet, the one included. -/
theorem Spelt.lettered {s p d : String} (h : Spelt s p d) : ∀ c ∈ s.toList, c ∈ alphabet.toList := by
  rw [h.text_eq, toList_spelt, List.forall_mem_append, List.forall_mem_cons]
  exact ⟨h.first.lettered, by decide +kernel, h.data.lettered⟩

theorem Spelt.ne_empty {s p d : String} (h : Spelt s p d) : s ≠ "" := by
  rintro rfl
  have hsplit := h.splitAtFirst_eq
  cases hsplit

theorem isWord_ofList_cons {c : Char} {cs : List Char} (h : ∀ x ∈ c :: cs, x ∈ alphabet.toList) :
    IsWord (String.ofList (c :: cs)) where
  ne_empty := by
    rw [Ne, ← String.toList_eq_nil_iff, String.toList_ofList]
    exact List.cons_ne_nil c cs
  lettered := by
    rwa [String.toList_ofList]

/-- Whether a given text is a word can be computed. -/
theorem isWord_of_all {s : String} (hsome : s ≠ "")
    (h : s.toList.all alphabet.toList.contains = true) : IsWord s :=
  ⟨hsome, fun c hc => List.contains_iff_mem.1 (List.all_eq_true.1 h c hc)⟩

/-- A text over the alphabet with something on both sides of its first one is
an address. -/
theorem exists_spelt_of_split {s : String} {b x : Char} {before after : List Char}
    (hover : ∀ c ∈ s.toList, c ∈ alphabet.toList)
    (h : splitAtFirst '1' s.toList = some (b :: before, x :: after)) : ∃ p d, Spelt s p d := by
  obtain ⟨htext, hone⟩ := splitAtFirst_eq_some_iff.1 h
  rw [htext] at hover
  obtain ⟨hbefore, hrest⟩ := List.forall_mem_append.1 hover
  refine ⟨String.ofList (b :: before), String.ofList (x :: after), ?_,
    isWord_ofList_cons hbefore, ?_, isWord_ofList_cons (List.forall_mem_cons.1 hrest).2⟩
  · rw [← String.toList_inj, toList_spelt, String.toList_ofList, String.toList_ofList, htext]
  · rwa [String.toList_ofList]

/-! ### Validation -/

variable {a : Address} {p d : String}

theorem exists_cons_of_ne_empty {s : String} (h : s ≠ "") : ∃ c cs, s.toList = c :: cs :=
  List.exists_cons_of_ne_nil (mt String.toList_eq_nil_iff.1 h)

theorem firstPart_of_spelt (h : Spelt a.text p d) : a.firstPart = some p := by
  obtain ⟨c, cs, hp⟩ := exists_cons_of_ne_empty h.first.ne_empty
  rw [firstPart, h.splitAtFirst_eq, hp]
  show some (String.ofList (c :: cs)) = some p
  rw [← hp, String.ofList_toList]

theorem validate_of_empty (h : a.text = "") : a.validate = .error .empty := by
  rw [validate, h]
  rfl

theorem all_isAddressChar_iff {s : String} :
    s.toList.all isAddressChar = true ↔ ∀ c ∈ s.toList, c ∈ alphabet.toList := by
  rw [List.all_eq_true]
  exact forall₂_congr fun _ _ => isAddressChar_iff

theorem validate_of_foreign (hsome : a.text ≠ "")
    (h : ¬ ∀ c ∈ a.text.toList, c ∈ alphabet.toList) :
    a.validate = .error (.invalidCharacter a.text) := by
  have hall : a.text.toList.all isAddressChar = false := by
    rw [← Bool.not_eq_true, all_isAddressChar_iff]
    exact h
  rw [validate, String.isEmpty_eq_false_iff.2 hsome, hall]
  rfl

theorem validate_of_over (hsome : a.text ≠ "") (h : ∀ c ∈ a.text.toList, c ∈ alphabet.toList) :
    a.validate =
      match splitAtFirst '1' a.text.toList with
      | some (_ :: _, _ :: _) => .ok ()
      | _ => .error (.missingSeparator a.text) := by
  rw [validate, String.isEmpty_eq_false_iff.2 hsome, all_isAddressChar_iff.2 h]
  rfl

theorem validate_of_spelt (h : Spelt a.text p d) : a.validate = .ok () := by
  obtain ⟨b, before, hp⟩ := exists_cons_of_ne_empty h.first.ne_empty
  obtain ⟨x, after, hd⟩ := exists_cons_of_ne_empty h.data.ne_empty
  rw [validate_of_over h.ne_empty h.lettered, h.splitAtFirst_eq, hp, hd]

theorem validate_of_not_spelt (hsome : a.text ≠ "")
    (hover : ∀ c ∈ a.text.toList, c ∈ alphabet.toList) (h : ¬ ∃ p d, Spelt a.text p d) :
    a.validate = .error (.missingSeparator a.text) := by
  rw [validate_of_over hsome hover]
  split
  next hsplit => exact absurd (exists_spelt_of_split hover hsplit) h
  next => rfl

theorem validate_eq_ok_iff : a.validate = .ok () ↔ ∃ p d, Spelt a.text p d := by
  constructor
  · intro h
    by_contra hspelt
    by_cases hempty : a.text = ""
    · rw [validate_of_empty hempty] at h
      cases h
    by_cases hover : ∀ c ∈ a.text.toList, c ∈ alphabet.toList
    · rw [validate_of_not_spelt hempty hover hspelt] at h
      cases h
    · rw [validate_of_foreign hempty hover] at h
      cases h
  · rintro ⟨p, d, h⟩
    exact validate_of_spelt h

/-- Of an address, nothing but the first part is left to be compared. -/
theorem validateWithPrefix_of_spelt (h : Spelt a.text p d) (expected : String) :
    a.validateWithPrefix expected =
      if p = expected then .ok () else .error (.wrongPrefix a.text expected) := by
  rw [validateWithPrefix, validate_of_spelt h, firstPart_of_spelt h]
  show (if some p = some expected then _ else _) = _
  simp only [Option.some.injEq]

theorem validate_of_validateWithPrefix {expected : String}
    (h : a.validateWithPrefix expected = .ok ()) : a.validate = .ok () := by
  rw [validateWithPrefix] at h
  rcases hvalid : a.validate with e | ⟨⟩
  · rw [hvalid] at h
    cases h
  · rfl

theorem validateWithPrefix_eq_ok_iff :
    a.validateWithPrefix p = .ok () ↔ ∃ d, Spelt a.text p d := by
  constructor
  · intro h
    obtain ⟨first, d, hspelt⟩ := validate_eq_ok_iff.1 (validate_of_validateWithPrefix h)
    rw [validateWithPrefix_of_spelt hspelt] at h
    split at h
    next hfirst => exact ⟨d, hfirst ▸ hspelt⟩
    next => cases h
  · rintro ⟨d, hspelt⟩
    rw [validateWithPrefix_of_spelt hspelt, if_pos rfl]

/-! ### Addresses of modules -/

theorem digit_mem_alphabet : ∀ n < 16, Hex.digit n ∈ alphabet.toList := by
  decide +kernel

theorem mem_alphabet_of_mem_hexChars {bs : Bytes} {c : Char} (h : c ∈ hexChars bs) :
    c ∈ alphabet.toList := by
  obtain ⟨b, -, hc⟩ := List.mem_flatMap.1 h
  have hb := b.toNat_lt
  rw [Hex.byte, List.mem_cons, List.mem_singleton] at hc
  rcases hc with rfl | rfl
  · exact digit_mem_alphabet _ (by omega)
  · exact digit_mem_alphabet _ (by omega)

theorem isWord_hexText {bs : Bytes} (h : bs ≠ []) : IsWord (hexText bs) := by
  obtain ⟨b, bs, rfl⟩ := List.exists_cons_of_ne_nil h
  have hdigits : ∀ c ∈ hexChars (b :: bs), c ∈ alphabet.toList :=
    fun _ => mem_alphabet_of_mem_hexChars
  exact isWord_ofList_cons hdigits

/-- The data of a module's address are digits of the digest of its name. -/
theorem spelt_ofModule (name : String) : Spelt (ofModule name).text moduleTag
    (hexText ((sha256 (utf8 name)).take moduleBytes)) where
  text_eq := rfl
  first := isWord_of_all (by decide) (by decide +kernel)
  first_without_one := by decide +kernel
  data := by
    apply isWord_hexText
    rw [← List.length_pos_iff, List.length_take, length_sha256]
    decide

/-- **Exactly what is spelt like an address is accepted, with its first part
only.**  An address has one first part, which is the one that is read off it.
Any other text is refused as empty if it is, else for a byte outside the
alphabet if it has one, else for want of a separator.  A first part that is
empty, that has a one or a character outside the alphabet in it is no
address's; and every module has an address whose first part is `mod`. -/
theorem validate_spelling (a : Address) :
    (∀ p, a.validateWithPrefix p = .ok () ↔ ∃ d, Spelt a.text p d) ∧
    (a.validate = .ok () ↔ ∃ p d, Spelt a.text p d) ∧
    (∀ p d, Spelt a.text p d → a.firstPart = some p ∧ ∀ p' d', Spelt a.text p' d' → p' = p) ∧
    (a.text = "" → a.validate = .error .empty) ∧
    (a.text ≠ "" → (∃ b ∈ utf8 a.text, b ∉ utf8 alphabet) →
      a.validate = .error (.invalidCharacter a.text)) ∧
    (a.text ≠ "" → (∀ b ∈ utf8 a.text, b ∈ utf8 alphabet) → (¬ ∃ p d, Spelt a.text p d) →
      a.validate = .error (.missingSeparator a.text)) ∧
    (∀ p, (p = "" ∨ '1' ∈ p.toList ∨ ∃ c ∈ p.toList, c ∉ alphabet.toList) →
      a.validateWithPrefix p ≠ .ok ()) ∧
    ∀ name, (ofModule name).validateWithPrefix "mod" = .ok () := by
  refine ⟨fun p => validateWithPrefix_eq_ok_iff, validate_eq_ok_iff,
    fun p d h => ⟨firstPart_of_spelt h, fun p' d' h' => (h.unique h').1⟩, validate_of_empty,
    fun hsome hforeign => validate_of_foreign hsome ?_,
    fun hsome hover => validate_of_not_spelt hsome (forall_mem_utf8_iff.1 hover),
    fun p hp haccepted => ?_,
    fun name => validateWithPrefix_eq_ok_iff.2 ⟨_, spelt_ofModule name⟩⟩
  · rw [← forall_mem_utf8_iff]
    intro hover
    obtain ⟨b, hb, hnot⟩ := hforeign
    exact hnot (hover b hb)
  · -- a first part that is accepted is spelt, so it is a word of letters without a one
    obtain ⟨d, hspelt⟩ := validateWithPrefix_eq_ok_iff.1 haccepted
    rcases hp with hempty | hone | ⟨c, hc, hnot⟩
    · exact hspelt.first.ne_empty hempty
    · exact hspelt.first_without_one hone
    · exact hnot (hspelt.first.lettered c hc)

/-- The first one separates, also where the data have ones; a letter with an
accent is refused for its bytes, and a text that begins with its only one has
no first part. -/
theorem validate_spelling_onesInData :
    Spelt "veranavaloper1x1z1" "veranavaloper" "x1z1" ∧
      (Address.mk "veranavaloper1x1z1").validateWithPrefix "veranavaloper" = .ok () ∧
      (Address.mk "veranavaloper1x1z1").firstPart = some "veranavaloper" ∧
      (Address.mk "veranavaloper1x1z1").validateWithPrefix "veranavaloper1x" ≠ .ok () ∧
      (Address.mk "").validate = .error .empty ∧
      (Address.mk "vérana1x").validate = .error (.invalidCharacter "vérana1x") ∧
      (Address.mk "1verana").validate = .error (.missingSeparator "1verana") := by
  have hspelt : Spelt "veranavaloper1x1z1" "veranavaloper" "x1z1" :=
    ⟨by decide +kernel, isWord_of_all (by decide) (by decide +kernel), by decide +kernel,
      isWord_of_all (by decide) (by decide +kernel)⟩
  obtain ⟨haccepted, -, hfirst, -, -, -, hnever, -⟩ :=
    validate_spelling ⟨"veranavaloper1x1z1"⟩
  obtain ⟨-, -, -, hempty, -⟩ := validate_spelling ⟨""⟩
  obtain ⟨-, -, -, -, hforeign, -⟩ := validate_spelling ⟨"vérana1x"⟩
  obtain ⟨-, -, -, -, -, hseparator, -⟩ := validate_spelling ⟨"1verana"⟩
  refine ⟨hspelt, (haccepted _).2 ⟨_, hspelt⟩, (hfirst _ _ hspelt).1,
    hnever _ (.inr (.inl (by decide +kernel))), hempty rfl,
    hforeign (by decide) (by decide +kernel),
    hseparator (by decide) (by decide +kernel) ?_⟩
  rintro ⟨p, d, h⟩
  have hsplit : splitAtFirst '1' "1verana".toList = some ([], "verana".toList) := by
    decide +kernel
  have hsame := h.splitAtFirst_eq
  rw [hsplit, Option.some.injEq, Prod.mk.injEq] at hsame
  exact h.first.ne_empty (String.toList_eq_nil_iff.1 hsame.1.symm)

end Address

end BlockHooks
