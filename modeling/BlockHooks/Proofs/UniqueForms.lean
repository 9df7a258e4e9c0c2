/-
BlockHooks/Proofs/UniqueForms.lean

Stored values have one form each.

What is read as a value is, byte for byte, what the value is written as
(`Stored.decode_eq_ok_iff`).  So reading and writing are inverse to each other
between the values that have a form and the bytes that are accepted, and two
stores that hold the same values hold the same bytes.

Everything else is refused, and the error says what is wrong: nothing at all,
another discriminator, or bytes behind the right one that are no form of a
value.  A form that breaks off is refused as too short (`Codec.Measured`), one
that goes on as not used up, and a text that is not UTF-8 wherever it stands
in its record (`Validator.illFormed_of_frames`).

`Stored.exact_records` says all this of the parameters, of the balance left
over and of the validators' records.
-/
import BlockHooks.Proofs.Records

namespace BlockHooks

namespace Codec

/-! ### Forms that break off -/

/-- Types that refuse a form that breaks off as too short. -/
class Measured (α : Type) [Codec α] : Prop where
  decodePart_of_broken {v : α} {front tail : Bytes} :
    Codec.encode v = .ok (front ++ tail) → tail ≠ [] →
      (Codec.decodePart front : Except CodecError (α × Bytes)) = .error .short

theorem splitBytes_of_lt {width : Nat} {bs : Bytes} (h : bs.length < width) :
    splitBytes width bs = .error .short := if_pos h

theorem decodeNat_of_lt {width : Nat} {bs : Bytes} (h : bs.length < width) :
    decodeNat width bs = .error .short := by
  rw [decodeNat, splitBytes_of_lt h]
  rfl

theorem length_lt_of_broken {bs front tail : Bytes} (h : bs = front ++ tail) (htail : tail ≠ []) :
    front.length < bs.length := by
  have := List.length_pos_iff.2 htail
  rw [h, List.length_append]
  omega

/-- Two forms in a row break off in the first or behind it. -/
theorem broken_append {first second front tail : Bytes} (h : first ++ second = front ++ tail) :
    (∃ cut, cut ≠ [] ∧ first = front ++ cut) ∨
      ∃ rest, front = first ++ rest ∧ second = rest ++ tail := by
  rcases List.append_eq_append_iff.1 h with behind | ⟨cut, hfirst, htail⟩
  · exact .inr behind
  · by_cases hcut : cut = []
    · subst hcut
      exact .inr ⟨[], by rw [hfirst, List.append_nil, List.append_nil], by rw [htail]; rfl⟩
    · exact .inl ⟨cut, hcut, hfirst⟩

instance : Measured UInt64 where
  decodePart_of_broken := by
    intro n front tail h htail
    have hlt := length_lt_of_broken (Except.ok.inj h) htail
    rw [length_littleEndian] at hlt
    show (do let (k, rest) ← decodeNat 8 front; return (UInt64.ofNat k, rest)) = _
    rw [decodeNat_of_lt hlt]
    rfl

instance : Measured Dec where
  decodePart_of_broken := by
    intro a front tail h htail
    have hlt := length_lt_of_broken (Except.ok.inj h) htail
    rw [length_littleEndian] at hlt
    exact dif_pos hlt

instance : Measured String where
  decodePart_of_broken := by
    intro s front tail h htail
    obtain ⟨hshort, hform⟩ := encode_text_eq_ok_iff.1 h
    show (decodeNat 4 front >>= fun r => _) = _
    rcases broken_append hform.symm with ⟨cut, hcut, hlength⟩ | ⟨text, rfl, htext⟩
    · have hlt := length_lt_of_broken hlength hcut
      rw [length_littleEndian] at hlt
      rw [decodeNat_of_lt hlt]
      rfl
    · rw [decodeNat_littleEndian hshort]
      show (splitBytes (utf8 s).length text >>= fun r => _) = _
      rw [splitBytes_of_lt (length_lt_of_broken htext htail)]
      rfl

variable {α β : Type} [Codec α] [Codec β]

instance [Lawful α] [Measured α] [Measured β] : Measured (α × β) where
  decodePart_of_broken := by
    intro v front tail h htail
    obtain ⟨first, hfirst, h⟩ := bind_eq_ok_iff.1 h
    obtain ⟨second, hsecond, h⟩ := bind_eq_ok_iff.1 h
    show (decodePart front >>= fun r => _) = _
    -- what breaks off behind the first form leaves a broken second one
    rcases broken_append (Except.ok.inj h) with ⟨cut, hcut, rfl⟩ | ⟨rest, rfl, rfl⟩
    · rw [Measured.decodePart_of_broken hfirst hcut]
      rfl
    · rw [Lawful.decodePart_of_encode rest hfirst]
      show (decodePart rest >>= fun r => _) = _
      rw [Measured.decodePart_of_broken hsecond htail]
      rfl

/-- A type whose values are written and read as those of a measured type. -/
theorem Measured.ofEquiv [Measured β] (e : α ≃ β)
    (hencode : ∀ a : α, encode a = encode (e a) >>= pure)
    (hdecode : ∀ bs, decodePart bs
      = (decodePart bs : Except CodecError (β × Bytes)) >>= fun r => pure (e.symm r.1, r.2)) :
    Measured α where
  decodePart_of_broken := by
    intro v front tail h htail
    rw [hencode, bind_pure] at h
    rw [hdecode, Measured.decodePart_of_broken h htail]
    rfl

instance : Measured Int64 := .ofEquiv wordEquiv (fun _ => rfl) decodePart_word

instance : Measured Address := .ofEquiv textEquiv (fun _ => (bind_pure _).symm) fun _ => rfl

instance : Measured Params := .ofEquiv paramsEquiv encode_params decodePart_params

instance : Measured Validator := .ofEquiv validatorEquiv encode_validator decodePart_validator

/-! ### Texts that are not UTF-8 -/

/-- Reading ends at bytes that should be UTF-8 and are not. -/
def IllFormed {γ : Type} (x : Except CodecError γ) : Prop := ∃ fault, x = .error (.notUtf8 fault)

/-- Bytes behind their number, as a text is written. -/
def frame (bs : Bytes) : Bytes := littleEndian 4 bs.length ++ bs

/-- Framed bytes that are not UTF-8 are no text. -/
theorem decodePart_frame_of_none {bs : Bytes} (hshort : bs.length < UInt32.size)
    (hbad : ofUtf8? bs = none) (rest : Bytes) :
    (decodePart (frame bs ++ rest) : Except CodecError (String × Bytes))
      = .error (.notUtf8 ((Utf8.firstFault bs).getD ⟨0, none⟩)) := by
  have hlength : decodeNat 4 (frame bs ++ rest) = .ok (bs.length, bs ++ rest) := by
    rw [frame, List.append_assoc]
    exact decodeNat_littleEndian hshort _
  have hsplit : splitBytes bs.length (bs ++ rest) = .ok (bs, rest) :=
    splitBytes_eq_ok_iff.2 ⟨rfl, rfl⟩
  show (decodeNat 4 (frame bs ++ rest) >>= fun r => _) = _
  rw [hlength]
  show (splitBytes bs.length (bs ++ rest) >>= fun r => _) = _
  rw [hsplit]
  refine (pure_bind (bs, rest) _).trans ?_
  dsimp only
  rw [hbad]

/-- Reading that begins with a framed text is ill-formed if the text is, or
if reading goes on to be. -/
theorem illFormed_text_bind {γ : Type} {bs : Bytes} (hshort : bs.length < UInt32.size)
    (rest : Bytes) (k : String × Bytes → Except CodecError γ)
    (h : ∀ s, ofUtf8? bs = some s → IllFormed (k (s, rest))) :
    IllFormed (decodePart (frame bs ++ rest) >>= k) := by
  rcases htext : ofUtf8? bs with - | s
  · rw [decodePart_frame_of_none hshort htext]
    exact ⟨_, rfl⟩
  · have hbs : bs = utf8 s := ofUtf8?_eq_some_iff.1 htext
    have hform : encode s = .ok (frame bs) :=
      encode_text_eq_ok_iff.2 ⟨hbs ▸ hshort, by rw [frame, hbs]⟩
    rw [Lawful.decodePart_of_encode rest hform]
    exact h s htext

theorem illFormed_address_bind {γ : Type} {bs : Bytes} (hshort : bs.length < UInt32.size)
    (rest : Bytes) (k : Address × Bytes → Except CodecError γ)
    (h : ∀ s, ofUtf8? bs = some s → IllFormed (k (⟨s⟩, rest))) :
    IllFormed (decodePart (frame bs ++ rest) >>= k) := by
  show IllFormed (((decodePart (frame bs ++ rest) : Except CodecError (String × Bytes))
    >>= fun r => pure (⟨r.1⟩, r.2)) >>= k)
  rw [bind_assoc]
  exact illFormed_text_bind hshort rest _ h

end Codec

open Codec in
/-- A record whose five texts are framed bytes is refused if one of them is
not UTF-8, whatever follows. -/
theorem Validator.illFormed_of_frames {texts : List Bytes} (hlength : texts.length = 5)
    (hshort : ∀ t ∈ texts, t.length < UInt32.size) (hbad : ∃ t ∈ texts, ofUtf8? t = none)
    (rest : Bytes) :
    IllFormed (decodePart (texts.flatMap frame ++ rest)
      : Except CodecError (Validator × Bytes)) := by
  obtain ⟨t₁, t₂, t₃, t₄, t₅, rfl⟩ : ∃ t₁ t₂ t₃ t₄ t₅, texts = [t₁, t₂, t₃, t₄, t₅] := by
    match texts, hlength with
    | [t₁, t₂, t₃, t₄, t₅], _ => exact ⟨t₁, t₂, t₃, t₄, t₅, rfl⟩
  have hshort' : ∀ {t}, t ∈ [t₁, t₂, t₃, t₄, t₅] → t.length < UInt32.size := hshort _
  simp only [List.flatMap_cons, List.flatMap_nil, List.append_assoc, List.nil_append]
  show IllFormed (decodePart (frame t₁ ++ _) >>= _)
  refine illFormed_text_bind (hshort' (by simp)) _ _ fun s₁ h₁ => ?_
  show IllFormed (decodePart (frame t₂ ++ _) >>= _)
  refine illFormed_text_bind (hshort' (by simp)) _ _ fun s₂ h₂ => ?_
  show IllFormed (decodePart (frame t₃ ++ _) >>= _)
  refine illFormed_address_bind (hshort' (by simp)) _ _ fun s₃ h₃ => ?_
  show IllFormed (decodePart (frame t₄ ++ _) >>= _)
  refine illFormed_text_bind (hshort' (by simp)) _ _ fun s₄ h₄ => ?_
  show IllFormed (decodePart (frame t₅ ++ _) >>= _)
  refine illFormed_text_bind (hshort' (by simp)) _ _ fun s₅ h₅ => ?_
  -- all five are UTF-8, against the assumption
  simp [h₁, h₂, h₃, h₄, h₅] at hbad

/-! ### Values in the store -/

namespace Stored

section

variable {α : Type} [Codec α] {key data body : Bytes} {discriminator : UInt8} {v : α}

theorem encode_eq_ok_iff : encode key discriminator v = .ok data ↔
    ∃ body, Codec.encode v = .ok body ∧ data = discriminator :: body := by
  unfold encode
  rcases Codec.encode v with e | body
  · constructor
    · intro h
      cases h
    · rintro ⟨body, h, -⟩
      cases h
  · constructor
    · intro h
      exact ⟨body, rfl, (Except.ok.inj h).symm⟩
    · rintro ⟨body', hbody, rfl⟩
      cases hbody
      rfl

/-- Behind its discriminator a body is read as by itself. -/
theorem decode_cons : (decode key discriminator (discriminator :: body) : Except StoreError α)
    = (Codec.decode body).mapError (.codec (lossyText key)) := if_pos rfl

theorem decode_of_foreign {found : UInt8} (h : found ≠ discriminator) :
    (decode key discriminator (found :: body) : Except StoreError α)
      = .error (.invalidDiscriminator (lossyText key) discriminator found) := if_neg h

theorem decode_of_refused {cause : CodecError}
    (h : (Codec.decode body : Except CodecError α) = .error cause) :
    (decode key discriminator (discriminator :: body) : Except StoreError α)
      = .error (.codec (lossyText key) cause) := by
  rw [decode_cons, h]
  rfl

/-- Bytes are read as a value exactly if the value is written as them. -/
theorem decode_eq_ok_iff [Codec.Lawful α] :
    decode key discriminator data = .ok v ↔ encode key discriminator v = .ok data := by
  refine ⟨fun h => ?_, decode_of_encode⟩
  rcases data with - | ⟨found, body⟩
  · cases h
  by_cases hfound : found = discriminator
  · subst hfound
    rw [decode_cons] at h
    rcases hread : (Codec.decode body : Except CodecError α) with e | w
    · rw [hread] at h
      cases h
    · rw [hread] at h
      cases h
      exact encode_eq_ok_iff.2 ⟨body, Codec.decode_eq_ok_iff.1 hread, rfl⟩
  · rw [decode_of_foreign hfound] at h
    cases h

end

/-- The forms of values of type `α` under a key are exactly what is read, and
what is refused is refused for what is wrong with it. -/
structure Exact (α : Type) [Codec α] (key : Bytes) (discriminator : UInt8) : Prop where
  decode_iff (v : α) (data : Bytes) :
    decode key discriminator data = .ok v ↔ encode key discriminator v = .ok data
  /-- No two byte strings are read as the same value. -/
  unique (v : α) (data data' : Bytes) :
    decode key discriminator data = .ok v → decode key discriminator data' = .ok v → data = data'
  empty : (decode key discriminator [] : Except StoreError α) = .error (.emptyValue (lossyText key))
  foreign (found : UInt8) (body : Bytes) : found ≠ discriminator →
    (decode key discriminator (found :: body) : Except StoreError α)
      = .error (.invalidDiscriminator (lossyText key) discriminator found)
  /-- Behind the right discriminator only the body can be wrong. -/
  refused (body : Bytes) : (∀ v : α, decode key discriminator (discriminator :: body) ≠ .ok v) →
    ∃ cause, (decode key discriminator (discriminator :: body) : Except StoreError α)
      = .error (.codec (lossyText key) cause)
  broken (v : α) (front tail : Bytes) :
    encode key discriminator v = .ok (discriminator :: (front ++ tail)) → tail ≠ [] →
      (decode key discriminator (discriminator :: front) : Except StoreError α)
        = .error (.codec (lossyText key) .short)
  overlong (v : α) (data rest : Bytes) : encode key discriminator v = .ok data → rest ≠ [] →
    (decode key discriminator (data ++ rest) : Except StoreError α)
      = .error (.codec (lossyText key) .trailing)

theorem exact {α : Type} [Codec α] [Codec.Lawful α] [Codec.Measured α] (key : Bytes)
    (discriminator : UInt8) : Exact α key discriminator where
  decode_iff _ _ := decode_eq_ok_iff
  unique v data data' h h' := by
    -- both are the one form that the value is written in
    have hform := decode_eq_ok_iff.1 h
    rw [decode_eq_ok_iff.1 h'] at hform
    exact (Except.ok.inj hform).symm
  empty := rfl
  foreign _ _ h := decode_of_foreign h
  refused body h := by
    rcases hread : (Codec.decode body : Except CodecError α) with cause | v
    · exact ⟨cause, decode_of_refused hread⟩
    · -- a body that can be read is the form of what it is read as
      refine absurd ?_ (h v)
      rw [decode_cons, hread]
      rfl
  broken v front tail h htail := by
    obtain ⟨body, hbody, hcons⟩ := encode_eq_ok_iff.1 h
    cases hcons
    refine decode_of_refused ?_
    rw [Codec.decode, Codec.Measured.decodePart_of_broken hbody htail]
  overlong v data rest h hrest := by
    obtain ⟨body, hbody, rfl⟩ := encode_eq_ok_iff.1 h
    obtain ⟨b, rest, rfl⟩ := List.exists_cons_of_ne_nil hrest
    show decode key discriminator (discriminator :: (body ++ b :: rest)) = _
    refine decode_of_refused ?_
    rw [Codec.decode, Codec.Lawful.decodePart_of_encode (b :: rest) hbody]

end Stored

/-! ### The stored records -/

namespace Codec

variable {α β : Type} [Codec α] [Codec β]

/-- The value can be written. -/
def HasForm (v : α) : Prop := ∃ bs, encode v = .ok bs

theorem hasForm_prod_iff {a : α} {b : β} : HasForm (a, b) ↔ HasForm a ∧ HasForm b := by
  refine ⟨?_, fun h => exists_encode_prod h.1 h.2⟩
  rintro ⟨bs, h⟩
  obtain ⟨front, hfront, h⟩ := bind_eq_ok_iff.1 h
  obtain ⟨back, hback, -⟩ := bind_eq_ok_iff.1 h
  exact ⟨⟨front, hfront⟩, ⟨back, hback⟩⟩

theorem hasForm_text_iff {s : String} : HasForm s ↔ (utf8 s).length < UInt32.size := by
  refine ⟨?_, exists_encode_text⟩
  rintro ⟨bs, h⟩
  exact (encode_text_eq_ok_iff.1 h).1

theorem hasForm_address_iff {a : Address} : HasForm a ↔ (utf8 a.text).length < UInt32.size :=
  hasForm_text_iff

theorem hasForm_params (p : Params) : HasForm p := ⟨_, rfl⟩

theorem hasForm_dec (a : Dec) : HasForm a := ⟨_, rfl⟩

/-- The records that can be stored are those of short texts. -/
theorem hasForm_validator_iff {v : Validator} : HasForm v ↔ v.Short := by
  have htuple : HasForm v ↔ HasForm (validatorEquiv v) := by
    rw [HasForm, encode_validator, bind_pure]
    rfl
  have hterm : HasForm v.termEnd := ⟨_, rfl⟩
  rw [htuple]
  show HasForm (v.index, v.memberId, v.operator, v.consensusPubkey, v.status, v.termEnd) ↔ _
  simp only [hasForm_prod_iff, hasForm_text_iff, hasForm_address_iff, hterm, and_true]
  simp [Validator.Short, Validator.texts]

end Codec

theorem Stored.exists_encode_iff {α : Type} [Codec α] {key : Bytes} {discriminator : UInt8}
    {v : α} :
    (∃ data, Stored.encode key discriminator v = .ok data) ↔ Codec.HasForm v := by
  constructor
  · rintro ⟨data, h⟩
    obtain ⟨body, hbody, -⟩ := Stored.encode_eq_ok_iff.1 h
    exact ⟨body, hbody⟩
  · rintro ⟨body, hbody⟩
    exact ⟨_, Stored.encode_eq_ok_iff.2 ⟨body, hbody, rfl⟩⟩

/-- **One form each**: under every key and behind every discriminator, what is
read as parameters, as a balance or as a validator's record is exactly what
they are written as, and everything else is refused for what is wrong with
it.  All parameters and balances have a form, and of the records those whose
texts fit their lengths.  Framed bytes that are not UTF-8 are refused in any
of a record's five texts, whatever follows. -/
theorem Stored.exact_records (key : Bytes) (discriminator : UInt8) :
    (Stored.Exact Params key discriminator ∧
      ∀ p : Params, ∃ data, Stored.encode key discriminator p = .ok data) ∧
    (Stored.Exact Dec key discriminator ∧
      ∀ a : Dec, ∃ data, Stored.encode key discriminator a = .ok data) ∧
    (Stored.Exact Validator key discriminator ∧
      ∀ v : Validator, (∃ data, Stored.encode key discriminator v = .ok data) ↔ v.Short) ∧
    ∀ texts : List Bytes, texts.length = 5 → (∀ t ∈ texts, t.length < UInt32.size) →
      (∃ t ∈ texts, ofUtf8? t = none) → ∀ rest, ∃ fault,
        (Stored.decode key discriminator (discriminator :: (texts.flatMap Codec.frame ++ rest))
          : Except StoreError Validator) = .error (.codec (lossyText key) (.notUtf8 fault)) := by
  refine ⟨⟨exact _ _, fun p => exists_encode_iff.2 (Codec.hasForm_params p)⟩,
    ⟨exact _ _, fun a => exists_encode_iff.2 (Codec.hasForm_dec a)⟩,
    ⟨exact _ _, fun _ => exists_encode_iff.trans Codec.hasForm_validator_iff⟩, ?_⟩
  intro texts hlength hshort hbad rest
  obtain ⟨fault, hread⟩ := Validator.illFormed_of_frames hlength hshort hbad rest
  refine ⟨fault, decode_of_refused ?_⟩
  rw [Codec.decode, hread]

namespace Scenario

/-- A member's identifier that is the one byte no text has. -/
def brokenTexts : List Bytes := [utf8 "m1", [0xff], utf8 "veranavaloper1a", [], utf8 "active"]

end Scenario

open Scenario in
theorem Stored.exact_records_dust :
    Stored.decode (utf8 "td/dust") 2 (2 :: Codec.littleEndian 16 7) = .ok (⟨7, by decide⟩ : Dec) ∧
      (Stored.decode (utf8 "td/dust") 2 (2 :: Codec.littleEndian 15 7) : Except StoreError Dec)
        = .error (.codec "td/dust" .short) ∧
      ∃ fault, (Stored.decode (utf8 "m1") 1 (1 :: brokenTexts.flatMap Codec.frame ++ [0])
        : Except StoreError Validator) = .error (.codec "m1" (.notUtf8 fault)) := by
  have hdust := (Stored.exact_records (utf8 "td/dust") 2).2.1.1
  refine ⟨(hdust.decode_iff _ _).2 rfl, ?_, ?_⟩
  · have h := hdust.broken ⟨7, by decide⟩ (Codec.littleEndian 15 7) [0] rfl (by decide)
    rw [lossyText_utf8] at h
    exact h
  · have hbad : ∃ t ∈ brokenTexts, ofUtf8? t = none := ⟨[0xff], by decide, by decide +kernel⟩
    obtain ⟨fault, h⟩ :=
      (Stored.exact_records (utf8 "m1") 1).2.2.2 brokenTexts rfl (by decide +kernel) hbad [0]
    rw [lossyText_utf8] at h
    exact ⟨fault, h⟩

end BlockHooks
