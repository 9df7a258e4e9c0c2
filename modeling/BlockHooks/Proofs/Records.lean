/-
BlockHooks/Proofs/Records.lean

The binary forms of stored records are lawful.

Numbers and texts are read back as they were written, and so are two values
one behind the other.  A record is written as its fields are, one behind the
other, and so has a lawful form because they have (`Codec.Lawful.ofEquiv`).

A number always has a form; a text has one if it has fewer than 2³² bytes,
and a record of a validator if its texts have (`Validator.exists_encode`).
-/
import Mathlib.Logic.Equiv.Defs
import BlockHooks.Deposit.Params
import BlockHooks.Proofs.Codec
import BlockHooks.Registry.Validator

namespace BlockHooks

namespace Codec

/-! ### Numbers -/

theorem splitBytes_eq_ok_iff {width : Nat} {bs front rest : Bytes} :
    splitBytes width bs = .ok (front, rest) ↔ bs = front ++ rest ∧ front.length = width := by
  unfold splitBytes
  split
  next hshort =>
    constructor
    · intro h
      cases h
    · rintro ⟨rfl, hlength⟩
      rw [List.length_append] at hshort
      omega
  next hlong =>
    constructor
    · intro h
      cases h
      refine ⟨(List.take_append_drop width bs).symm, ?_⟩
      rw [List.length_take]
      omega
    · rintro ⟨rfl, rfl⟩
      rw [List.take_left' rfl, List.drop_left' rfl]

/-- A number in `width` bytes is read back, whatever follows. -/
theorem decodeNat_littleEndian {width n : Nat} (h : n < byteRange width) (rest : Bytes) :
    decodeNat width (littleEndian width n ++ rest) = .ok (n, rest) := by
  have hsplit : splitBytes width (littleEndian width n ++ rest)
      = .ok (littleEndian width n, rest) :=
    splitBytes_eq_ok_iff.2 ⟨rfl, length_littleEndian width n⟩
  rw [decodeNat, hsplit]
  show Except.ok (ofLittleEndian (littleEndian width n), rest) = _
  rw [ofLittleEndian_littleEndian h]

/-- What is read as a number is what the number is written as. -/
theorem decodeNat_eq_ok_inv {width n : Nat} {bs rest : Bytes}
    (h : decodeNat width bs = .ok (n, rest)) :
    n < byteRange width ∧ bs = littleEndian width n ++ rest := by
  rcases hsplit : splitBytes width bs with e | ⟨front, after⟩
  · rw [decodeNat, hsplit] at h
    cases h
  · rw [decodeNat, hsplit] at h
    cases h
    obtain ⟨rfl, rfl⟩ := splitBytes_eq_ok_iff.1 hsplit
    exact ⟨ofLittleEndian_lt front, by rw [littleEndian_ofLittleEndian]⟩

instance : Lawful UInt64 where
  decodePart_of_encode := by
    intro n bs rest h
    cases h
    show (do let (k, rest) ← decodeNat 8 (littleEndian 8 n.toNat ++ rest)
             return (UInt64.ofNat k, rest)) = _
    rw [decodeNat_littleEndian n.toNat_lt]
    show Except.ok (UInt64.ofNat n.toNat, rest) = _
    rw [UInt64.ofNat_toNat]
  encode_of_decodePart := by
    intro n bs rest h
    obtain ⟨⟨k, after⟩, hread, hk⟩ := bind_eq_ok_iff.1 h
    cases hk
    obtain ⟨hlt, rfl⟩ := decodeNat_eq_ok_inv hread
    refine ⟨littleEndian 8 k, ?_, rfl⟩
    show Except.ok (littleEndian 8 (UInt64.ofNat k).toNat) = _
    rw [UInt64.toNat_ofNat_of_lt' hlt]

/-! ### Texts -/

theorem encode_text_eq_ok_iff {s : String} {bs : Bytes} :
    encode s = .ok bs ↔
      (utf8 s).length < UInt32.size ∧ bs = littleEndian 4 (utf8 s).length ++ utf8 s := by
  show (if _ then Except.ok _ else Except.error _) = _ ↔ _
  split
  next hshort =>
    constructor
    · intro h
      cases h
      exact ⟨hshort, rfl⟩
    · rintro ⟨-, rfl⟩
      rfl
  next hlong =>
    constructor
    · intro h
      cases h
    · rintro ⟨hshort, -⟩
      exact absurd hshort hlong

instance : Lawful String where
  decodePart_of_encode := by
    intro s bs rest h
    obtain ⟨hshort, rfl⟩ := encode_text_eq_ok_iff.1 h
    have hlength : decodeNat 4 (littleEndian 4 (utf8 s).length ++ (utf8 s ++ rest))
        = .ok ((utf8 s).length, utf8 s ++ rest) :=
      decodeNat_littleEndian hshort _
    have hsplit : splitBytes (utf8 s).length (utf8 s ++ rest) = .ok (utf8 s, rest) :=
      splitBytes_eq_ok_iff.2 ⟨rfl, rfl⟩
    rw [List.append_assoc]
    refine bind_eq_ok_iff.2 ⟨_, hlength, bind_eq_ok_iff.2 ⟨_, hsplit, ?_⟩⟩
    dsimp only
    rw [ofUtf8?_utf8]
    rfl
  encode_of_decodePart := by
    intro s bs rest h
    obtain ⟨⟨n, bs'⟩, hlength, hafter⟩ := bind_eq_ok_iff.1 h
    obtain ⟨⟨text, rest'⟩, hsplit, htext⟩ := bind_eq_ok_iff.1 hafter
    obtain ⟨hlt, rfl⟩ := decodeNat_eq_ok_inv hlength
    obtain ⟨rfl, rfl⟩ := splitBytes_eq_ok_iff.1 hsplit
    dsimp only at htext
    rcases hread : ofUtf8? text with - | s'
    · rw [hread] at htext
      cases htext
    · rw [hread] at htext
      cases htext
      rw [ofUtf8?_eq_some_iff.1 hread] at hlt ⊢
      refine ⟨_, encode_text_eq_ok_iff.2 ⟨hlt, rfl⟩, ?_⟩
      rw [List.append_assoc]

/-! ### One value behind the other -/

variable {α β : Type} [Codec α] [Codec β]

instance : Codec (α × β) where
  encode v := do
    let front ← encode v.1
    let back ← encode v.2
    return front ++ back
  decodePart bs := do
    let (a, bs) ← decodePart bs
    let (b, bs) ← decodePart bs
    return ((a, b), bs)

instance [Lawful α] [Lawful β] : Lawful (α × β) where
  decodePart_of_encode := by
    intro v bs rest h
    obtain ⟨front, hfront, h⟩ := bind_eq_ok_iff.1 h
    obtain ⟨back, hback, h⟩ := bind_eq_ok_iff.1 h
    cases h
    rw [List.append_assoc]
    refine bind_eq_ok_iff.2 ⟨_, Lawful.decodePart_of_encode (back ++ rest) hfront, ?_⟩
    exact bind_eq_ok_iff.2 ⟨_, Lawful.decodePart_of_encode rest hback, rfl⟩
  encode_of_decodePart := by
    intro v bs rest h
    obtain ⟨⟨a, bs'⟩, ha, h⟩ := bind_eq_ok_iff.1 h
    obtain ⟨⟨b, bs''⟩, hb, h⟩ := bind_eq_ok_iff.1 h
    cases h
    obtain ⟨front, hfront, rfl⟩ := Lawful.encode_of_decodePart ha
    obtain ⟨back, hback, rfl⟩ := Lawful.encode_of_decodePart hb
    refine ⟨front ++ back, ?_, (List.append_assoc front back rest).symm⟩
    exact bind_eq_ok_iff.2 ⟨_, hfront, bind_eq_ok_iff.2 ⟨_, hback, rfl⟩⟩

theorem encode_prod_bind {γ : Type} (a : α) (b : β) (k : Bytes → Except CodecError γ) :
    encode (a, b) >>= k
      = encode a >>= fun front => encode b >>= fun back => k (front ++ back) := by
  show ((do let front ← encode a; let back ← encode b; return front ++ back) >>= k) = _
  rcases encode a with e | front
  · rfl
  · rcases encode b with e | back <;> rfl

theorem decodePart_prod_bind {γ : Type} (bs : Bytes)
    (k : (α × β) × Bytes → Except CodecError γ) :
    decodePart bs >>= k
      = decodePart bs >>= fun r => decodePart r.2 >>= fun r' => k ((r.1, r'.1), r'.2) := by
  show ((do let (a, bs) ← decodePart bs; let (b, bs) ← decodePart bs; return ((a, b), bs))
    >>= k) = _
  rcases (decodePart bs : Except CodecError (α × Bytes)) with e | ⟨a, bs'⟩
  · rfl
  · show ((do let (b, bs) ← decodePart bs'; return ((a, b), bs)) >>= k)
      = decodePart bs' >>= fun r' => k ((a, r'.1), r'.2)
    rcases (decodePart bs' : Except CodecError (β × Bytes)) with e | r <;> rfl

/-- A type whose values are written and read as those of a type with a
lawful form. -/
theorem Lawful.ofEquiv [Lawful β] (e : α ≃ β) (hencode : ∀ a : α, encode a = encode (e a) >>= pure)
    (hdecode : ∀ bs, decodePart bs
      = (decodePart bs : Except CodecError (β × Bytes)) >>= fun r => pure (e.symm r.1, r.2)) :
    Lawful α where
  decodePart_of_encode := by
    intro v bs rest h
    rw [hencode, bind_pure] at h
    rw [hdecode, Lawful.decodePart_of_encode rest h]
    show Except.ok (e.symm (e v), rest) = _
    rw [e.symm_apply_apply]
  encode_of_decodePart := by
    intro v bs rest h
    rw [hdecode] at h
    obtain ⟨⟨b, rest'⟩, hread, hv⟩ := bind_eq_ok_iff.1 h
    cases hv
    rw [hencode, e.apply_symm_apply, bind_pure]
    exact Lawful.encode_of_decodePart hread

/-! ### Records -/

/-- A signed word is written as the unsigned word with the same bits. -/
def wordEquiv : Int64 ≃ UInt64 where
  toFun n := n.toUInt64
  invFun n := n.toInt64
  left_inv _ := rfl
  right_inv _ := rfl

/-- An address is written as its text. -/
def textEquiv : Address ≃ String where
  toFun a := a.text
  invFun s := ⟨s⟩
  left_inv _ := rfl
  right_inv _ := rfl

/-- Parameters are written as their fields in order. -/
def paramsEquiv : Params ≃ UInt64 × Dec × UInt64 where
  toFun p := (p.trustDepositValue, p.yieldRate, p.blocksPerYear)
  invFun t := ⟨t.1, t.2.1, t.2.2⟩
  left_inv _ := rfl
  right_inv _ := rfl

/-- A record is written as its fields in order. -/
def validatorEquiv : Validator ≃ String × String × Address × String × String × Int64 where
  toFun v := (v.index, v.memberId, v.operator, v.consensusPubkey, v.status, v.termEnd)
  invFun t := ⟨t.1, t.2.1, t.2.2.1, t.2.2.2.1, t.2.2.2.2.1, t.2.2.2.2.2⟩
  left_inv _ := rfl
  right_inv _ := rfl

theorem decodePart_word (bs : Bytes) : (decodePart bs : Except CodecError (Int64 × Bytes))
    = (decodePart bs : Except CodecError (UInt64 × Bytes)) >>= fun r =>
        pure (wordEquiv.symm r.1, r.2) := by
  show (do let (n, rest) ← decodeNat 8 bs; return ((UInt64.ofNat n).toInt64, rest)) =
    (do let (n, rest) ← decodeNat 8 bs; return (UInt64.ofNat n, rest)) >>= _
  rcases decodeNat 8 bs with e | r <;> rfl

instance : Lawful Int64 := .ofEquiv wordEquiv (fun _ => rfl) decodePart_word

instance : Lawful Address := .ofEquiv textEquiv (fun _ => (bind_pure _).symm) fun _ => rfl

theorem encode_params (p : Params) : encode p = encode (paramsEquiv p) >>= pure := by
  show _ = encode (p.trustDepositValue, p.yieldRate, p.blocksPerYear) >>= pure
  simp only [encode_prod_bind, ← List.append_assoc]
  rfl

theorem decodePart_params (bs : Bytes) : (decodePart bs : Except CodecError (Params × Bytes))
    = (decodePart bs : Except CodecError ((UInt64 × Dec × UInt64) × Bytes)) >>= fun r =>
        pure (paramsEquiv.symm r.1, r.2) := by
  simp only [decodePart_prod_bind]
  rfl

instance : Lawful Params := .ofEquiv paramsEquiv encode_params decodePart_params

theorem encode_validator (v : Validator) : encode v = encode (validatorEquiv v) >>= pure := by
  show _ = encode (v.index, v.memberId, v.operator, v.consensusPubkey, v.status, v.termEnd)
    >>= pure
  simp only [encode_prod_bind, ← List.append_assoc]
  rfl

theorem decodePart_validator (bs : Bytes) : (decodePart bs : Except CodecError (Validator × Bytes))
    = (decodePart bs : Except CodecError
        ((String × String × Address × String × String × Int64) × Bytes)) >>= fun r =>
        pure (validatorEquiv.symm r.1, r.2) := by
  simp only [decodePart_prod_bind]
  rfl

instance : Lawful Validator := .ofEquiv validatorEquiv encode_validator decodePart_validator

/-! ### Values that have a form -/

theorem exists_encode_prod {a : α} {b : β} (ha : ∃ bs, encode a = .ok bs)
    (hb : ∃ bs, encode b = .ok bs) : ∃ bs, encode (a, b) = .ok bs := by
  obtain ⟨front, hfront⟩ := ha
  obtain ⟨back, hback⟩ := hb
  exact ⟨front ++ back, bind_eq_ok_iff.2 ⟨_, hfront, bind_eq_ok_iff.2 ⟨_, hback, rfl⟩⟩⟩

theorem exists_encode_text {s : String} (h : (utf8 s).length < UInt32.size) :
    ∃ bs, encode s = .ok bs :=
  ⟨_, encode_text_eq_ok_iff.2 ⟨h, rfl⟩⟩

end Codec

/-- The texts of a record. -/
def Validator.texts (v : Validator) : List String :=
  [v.index, v.memberId, v.operator.text, v.consensusPubkey, v.status]

/-- The length of every text of the record fits in four bytes. -/
def Validator.Short (v : Validator) : Prop := ∀ s ∈ v.texts, (utf8 s).length < UInt32.size

instance (v : Validator) : Decidable v.Short :=
  inferInstanceAs (Decidable (∀ s ∈ v.texts, (utf8 s).length < UInt32.size))

/-- A record of short texts can be stored. -/
theorem Validator.exists_encode {v : Validator} (h : v.Short) : ∃ bs, Codec.encode v = .ok bs := by
  have htext {s : String} (hs : s ∈ v.texts) : ∃ bs, Codec.encode s = .ok bs :=
    Codec.exists_encode_text (h s hs)
  rw [Codec.encode_validator, bind_pure]
  apply Codec.exists_encode_prod (htext (by simp [texts]))
  apply Codec.exists_encode_prod (htext (by simp [texts]))
  apply Codec.exists_encode_prod (α := Address)
  · exact htext (by simp [texts])
  apply Codec.exists_encode_prod (htext (by simp [texts]))
  apply Codec.exists_encode_prod (htext (by simp [texts]))
  exact ⟨_, rfl⟩

end BlockHooks
