/-
BlockHooks/Proofs/Codec.lean

Binary forms are read back as they were written.

A lawful form reads back from the front of any input what was written
there, and reads nothing else: what was read is what writing the value
would have put there.  So reading a whole input is the inverse of writing
(`decode_eq_ok_iff`), and a value behind its discriminator is found again
(`decode_of_encode`).
-/
import BlockHooks.Store.Encoding

namespace BlockHooks

/-- A sequence succeeds exactly if both halves do. -/
theorem bind_eq_ok_iff {ε α β : Type} {x : Except ε α} {f : α → Except ε β} {b : β} :
    x >>= f = .ok b ↔ ∃ a, x = .ok a ∧ f a = .ok b := by
  rcases x with e | a
  · exact ⟨nofun, nofun⟩
  · constructor
    · intro h
      exact ⟨a, rfl, h⟩
    · rintro ⟨a', ha, h⟩
      cases ha
      exact h

/-- Reading and writing are inverse to each other, whatever follows. -/
class Codec.Lawful (α : Type) [Codec α] : Prop where
  decodePart_of_encode {v : α} {bs : Bytes} (rest : Bytes) :
    Codec.encode v = .ok bs → Codec.decodePart (bs ++ rest) = .ok (v, rest)
  encode_of_decodePart {v : α} {bs rest : Bytes} :
    Codec.decodePart bs = .ok (v, rest) → ∃ front, Codec.encode v = .ok front ∧ bs = front ++ rest

namespace Codec

instance : Lawful Dec where
  decodePart_of_encode := by
    intro v bs rest h
    cases h
    have hlen : ¬ (littleEndian 16 v.raw ++ rest).length < 16 := by simp
    have htake : (littleEndian 16 v.raw ++ rest).take 16 = littleEndian 16 v.raw :=
      List.take_left' (length_littleEndian 16 v.raw)
    have hdrop : (littleEndian 16 v.raw ++ rest).drop 16 = rest :=
      List.drop_left' (length_littleEndian 16 v.raw)
    show (if h : _ then _ else _) = _
    rw [dif_neg hlen]
    refine congrArg Except.ok (Prod.ext (Dec.ext ?_) hdrop)
    show ofLittleEndian ((littleEndian 16 v.raw ++ rest).take 16) = v.raw
    rw [htake]
    exact ofLittleEndian_littleEndian v.raw_lt
  encode_of_decodePart := by
    intro v bs rest h
    have h' : (if h : bs.length < 16 then Except.error CodecError.short else _) = _ := h
    by_cases hlen : bs.length < 16
    · rw [dif_pos hlen] at h'
      cases h'
    · rw [dif_neg hlen] at h'
      cases h'
      refine ⟨bs.take 16, ?_, (List.take_append_drop 16 bs).symm⟩
      have h16 : (bs.take 16).length = 16 := by
        rw [List.length_take]
        omega
      have hback := littleEndian_ofLittleEndian (bs.take 16)
      rw [h16] at hback
      exact congrArg Except.ok hback

variable {α : Type} [Codec α] [Lawful α]

/-- The inputs that are read as `v` are those that `v` is written as. -/
theorem decode_eq_ok_iff {v : α} {bs : Bytes} :
    Codec.decode bs = .ok v ↔ Codec.encode v = .ok bs := by
  constructor
  · intro h
    unfold Codec.decode at h
    split at h
    next w hw =>
      cases h
      obtain ⟨front, he, rfl⟩ := Lawful.encode_of_decodePart hw
      rwa [List.append_nil]
    next => cases h
    next => cases h
  · intro h
    have := Lawful.decodePart_of_encode [] h
    rw [List.append_nil] at this
    unfold Codec.decode
    rw [this]

end Codec

/-- A value behind its discriminator is found again. -/
theorem Stored.decode_of_encode {α : Type} [Codec α] [Codec.Lawful α] {key : Bytes}
    {discriminator : UInt8} {v : α} {bs : Bytes}
    (h : Stored.encode key discriminator v = .ok bs) :
    Stored.decode key discriminator bs = .ok v := by
  unfold Stored.encode at h
  split at h
  next body hbody =>
    cases h
    simp only [Stored.decode, if_true, Codec.decode_eq_ok_iff.2 hbody]
    rfl
  next => cases h

end BlockHooks
