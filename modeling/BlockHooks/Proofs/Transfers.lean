/-
BlockHooks/Proofs/Transfers.lean

What a transfer does to the balances of a bank.

Setting a balance changes the total supply by the difference to what was
there (`totalSupply_setBalance`), so no account holds more than the total,
and no two of them do together.  A transfer that was made took the amount
from the sender and gave it to the receiver (`transfer_ok_inv`); the total
is what it was (`totalSupply_transfer`), and a transfer from an account to
itself has moved nothing.

A transfer is refused only if the sender does not cover it, if it leaves the
receiver with more than a word, or if no transfers are made at all
(`exists_transfer_iff`).  A bank whose total supply is a word thus refuses no
transfer between two accounts that the sender can cover (`exists_transfer`).
-/
import BlockHooks.Bank

namespace BlockHooks

/-! ### Sums of bound words -/

section

variable {κ : Type}

/-- The sum of the words that a list binds. -/
def totalOf (l : List (κ × UInt64)) : Nat :=
  (l.map (·.2)).foldr (fun n total => n.toNat + total) 0

theorem totalOf_cons (e : κ × UInt64) (l : List (κ × UInt64)) :
    totalOf (e :: l) = e.2.toNat + totalOf l :=
  rfl

variable [Ord κ]

/-- What stands below all keys of a list is not bound in it. -/
theorem lookup_eq_none_of_below {a : κ} {l : List (κ × UInt64)}
    (h : ∀ e ∈ l, compare a e.1 = .lt) : Table.lookup a l = none := by
  induction l with
  | nil => rfl
  | cons e l ih =>
    have hfirst : compare a e.1 ≠ .eq := by
      rw [h e List.mem_cons_self]
      decide
    rw [Table.lookup, if_neg hfirst]
    exact ih fun e' he' => h e' (List.mem_cons_of_mem _ he')

/-- The new word comes in the place of the old one. -/
theorem totalOf_bind [Std.TransOrd κ] (a : κ) (n : UInt64) {l : List (κ × UInt64)}
    (hl : l.Pairwise fun e e' => compare e.1 e'.1 = .lt) :
    totalOf (Table.bind a n l) + ((Table.lookup a l).getD 0).toNat = totalOf l + n.toNat := by
  induction l with
  | nil =>
    show n.toNat + 0 + 0 = 0 + n.toNat
    omega
  | cons e l ih =>
    obtain ⟨a', n'⟩ := e
    obtain ⟨hfirst, hrest⟩ := List.pairwise_cons.1 hl
    rcases hcompare : compare a a' with - | - | -
    · -- the key is a new one, below all others
      have hnone : Table.lookup a ((a', n') :: l) = none := by
        apply lookup_eq_none_of_below
        intro e he
        rcases List.mem_cons.1 he with rfl | he
        · exact hcompare
        · exact Std.TransCmp.lt_trans hcompare (hfirst e he)
      rw [hnone, Table.bind, hcompare]
      simp only [totalOf_cons, Option.getD_none, UInt64.toNat_zero]
      omega
    · rw [Table.bind, Table.lookup, hcompare, if_pos rfl]
      simp only [totalOf_cons, Option.getD_some]
      omega
    · have hne : ¬ compare a a' = .eq := by
        rw [hcompare]
        decide
      have hih := ih hrest
      rw [Table.bind, Table.lookup, if_neg hne, hcompare]
      simp only [totalOf_cons]
      omega

end

namespace MemBank

variable {b b' : MemBank} {sender receiver : Address} {amount : UInt64}

theorem balanceOf_setBalance (b : MemBank) (a c : Address) (n : UInt64) :
    (b.setBalance a n).balanceOf c = if c = a then n else b.balanceOf c := by
  show ((b.balances.insert a n).get? c).getD 0 = _
  rw [Table.get?_insert]
  split <;> rfl

theorem totalSupply_setBalance (b : MemBank) (a : Address) (n : UInt64) :
    (b.setBalance a n).totalSupply + (b.balanceOf a).toNat = b.totalSupply + n.toNat :=
  totalOf_bind a n b.balances.ascending

theorem balanceOf_le_totalSupply (b : MemBank) (a : Address) :
    (b.balanceOf a).toNat ≤ b.totalSupply := by
  -- without the account the others hold what is missing to the total
  have h := b.totalSupply_setBalance a 0
  have hzero : (0 : UInt64).toNat = 0 := rfl
  omega

theorem balanceOf_add_le_totalSupply (b : MemBank) {a c : Address} (h : c ≠ a) :
    (b.balanceOf a).toNat + (b.balanceOf c).toNat ≤ b.totalSupply := by
  have hothers := (b.setBalance a 0).balanceOf_le_totalSupply c
  rw [balanceOf_setBalance, if_neg h] at hothers
  have hsum := b.totalSupply_setBalance a 0
  have hzero : (0 : UInt64).toNat = 0 := rfl
  omega

/-! ### Transfers -/

/-- No transfer is made while transfers fail. -/
theorem sends_of_transfer (h : b.transfer sender receiver amount = .ok b') :
    b.failingSend = false := by
  rw [transfer] at h
  split at h
  next => cases h
  next hsends => exact Bool.of_not_eq_true hsends

/-- What a transfer that was made has found and written. -/
theorem transfer_ok_inv (h : b.transfer sender receiver amount = .ok b') :
    amount ≤ b.balanceOf sender ∧
      ∃ moved : MemBank,
        b' = { moved with transfers := moved.transfers ++ [⟨sender, receiver, amount⟩] } ∧
        (sender = receiver ∧ moved = b ∨
          sender ≠ receiver ∧
            ∃ credited, credited.toNat = (b.balanceOf receiver).toNat + amount.toNat ∧
              moved = (b.setBalance sender (b.balanceOf sender - amount)).setBalance
                receiver credited) := by
  rw [transfer] at h
  split at h
  next => cases h
  next =>
    rcases hmoved : b.moveFunds sender receiver amount with e | moved
    · rw [hmoved] at h
      cases h
    · rw [hmoved] at h
      cases h
      -- the amount must be covered also where nothing is moved
      unfold moveFunds at hmoved
      dsimp only at hmoved
      split at hmoved
      next => cases hmoved
      next hcovered =>
        refine ⟨UInt64.not_lt.1 hcovered, moved, rfl, ?_⟩
        split at hmoved
        next hself =>
          cases hmoved
          exact Or.inl ⟨hself, rfl⟩
        next hother =>
          split at hmoved
          next => cases hmoved
          next credited hcredited =>
            cases hmoved
            exact Or.inr ⟨hother, credited, addChecked?_eq_some_iff.1 hcredited, rfl⟩

/-- A transfer from an account to itself moves nothing. -/
theorem balances_transfer_self (h : b.transfer sender sender amount = .ok b') :
    b'.balances = b.balances := by
  obtain ⟨-, moved, rfl, ⟨-, rfl⟩ | ⟨hne, -⟩⟩ := transfer_ok_inv h
  · rfl
  · exact absurd rfl hne

/-- The amount goes from the one account to the other. -/
theorem balanceOf_transfer (h : b.transfer sender receiver amount = .ok b')
    (hne : sender ≠ receiver) :
    (b'.balanceOf sender).toNat + amount.toNat = (b.balanceOf sender).toNat ∧
      (b'.balanceOf receiver).toNat = (b.balanceOf receiver).toNat + amount.toNat := by
  obtain ⟨hcovered, moved, rfl, ⟨hself, -⟩ | ⟨-, credited, hcredited, rfl⟩⟩ := transfer_ok_inv h
  · exact absurd hself hne
  · rw [UInt64.le_iff_toNat_le] at hcovered
    constructor
    · show ((((b.setBalance sender _).setBalance receiver credited).balanceOf sender).toNat) + _ = _
      rw [balanceOf_setBalance, if_neg hne, balanceOf_setBalance, if_pos rfl,
        UInt64.toNat_sub_of_le _ _ hcovered]
      omega
    · show ((((b.setBalance sender _).setBalance receiver credited).balanceOf receiver).toNat) = _
      rw [balanceOf_setBalance, if_pos rfl, hcredited]

/-- All other accounts are left alone. -/
theorem balanceOf_transfer_of_ne {a : Address} (h : b.transfer sender receiver amount = .ok b')
    (hsender : a ≠ sender) (hreceiver : a ≠ receiver) : b'.balanceOf a = b.balanceOf a := by
  obtain ⟨-, moved, rfl, ⟨-, rfl⟩ | ⟨-, credited, -, rfl⟩⟩ := transfer_ok_inv h
  · rfl
  · show ((b.setBalance sender _).setBalance receiver credited).balanceOf a = _
    rw [balanceOf_setBalance, if_neg hreceiver, balanceOf_setBalance, if_neg hsender]

/-- What an account holds and has paid is what it held and was paid. -/
theorem balanceOf_transfer_add (h : b.transfer sender receiver amount = .ok b') (a : Address) :
    (b'.balanceOf a).toNat + (if sender = a then amount.toNat else 0)
      = (b.balanceOf a).toNat + (if receiver = a then amount.toNat else 0) := by
  by_cases hself : sender = receiver
  · subst hself
    have hsame : b'.balanceOf a = b.balanceOf a :=
      congrArg (fun t : Table Address UInt64 => (t.get? a).getD 0) (balances_transfer_self h)
    rw [hsame]
  · obtain ⟨hpaid, hreceived⟩ := balanceOf_transfer h hself
    by_cases hsender : sender = a
    · subst hsender
      rw [if_pos rfl, if_neg (Ne.symm hself), hpaid, Nat.add_zero]
    · rw [if_neg hsender, Nat.add_zero]
      by_cases hreceiver : receiver = a
      · subst hreceiver
        rw [if_pos rfl, hreceived]
      · rw [if_neg hreceiver, Nat.add_zero,
          balanceOf_transfer_of_ne h (Ne.symm hsender) (Ne.symm hreceiver)]

/-- The switches of a bank are not touched. -/
theorem switches_transfer (h : b.transfer sender receiver amount = .ok b') :
    b'.failingBalance = b.failingBalance ∧ b'.failingSend = b.failingSend := by
  obtain ⟨-, moved, rfl, ⟨-, rfl⟩ | ⟨-, credited, -, rfl⟩⟩ := transfer_ok_inv h
  · exact ⟨rfl, rfl⟩
  · exact ⟨rfl, rfl⟩

/-- A transfer is recorded after all others. -/
theorem transfers_transfer (h : b.transfer sender receiver amount = .ok b') :
    b'.transfers = b.transfers ++ [⟨sender, receiver, amount⟩] := by
  obtain ⟨-, moved, rfl, ⟨-, rfl⟩ | ⟨-, credited, -, rfl⟩⟩ := transfer_ok_inv h
  · rfl
  · rfl

/-- Nothing is made or lost. -/
theorem totalSupply_transfer (h : b.transfer sender receiver amount = .ok b') :
    b'.totalSupply = b.totalSupply := by
  obtain ⟨hcovered, moved, rfl, ⟨-, rfl⟩ | ⟨hne, credited, hcredited, rfl⟩⟩ := transfer_ok_inv h
  · rfl
  · show ((b.setBalance sender _).setBalance receiver credited).totalSupply = _
    have hfirst := b.totalSupply_setBalance sender (b.balanceOf sender - amount)
    have hsecond := (b.setBalance sender (b.balanceOf sender - amount)).totalSupply_setBalance
      receiver credited
    rw [balanceOf_setBalance, if_neg hne.symm] at hsecond
    rw [UInt64.toNat_sub_of_le _ _ hcovered] at hfirst
    rw [UInt64.le_iff_toNat_le] at hcovered
    omega

/-- A transfer is made exactly if transfers are made at all, the sender covers
the amount, and another receiver's balance stays a word. -/
theorem exists_transfer_iff :
    (∃ b', b.transfer sender receiver amount = .ok b') ↔
      b.failingSend = false ∧ amount ≤ b.balanceOf sender ∧
        (sender ≠ receiver →
          (b.balanceOf receiver).toNat + amount.toNat < UInt64.size) := by
  constructor
  · rintro ⟨b', h⟩
    obtain ⟨hcovered, moved, -, hmoved⟩ := transfer_ok_inv h
    refine ⟨sends_of_transfer h, hcovered, fun hne => ?_⟩
    rcases hmoved with ⟨hself, -⟩ | ⟨-, credited, hcredited, -⟩
    · exact absurd hself hne
    · rw [← hcredited]
      exact credited.toNat_lt_size
  · rintro ⟨hsends, hcovered, hroom⟩
    have hmoved : ∃ moved, b.moveFunds sender receiver amount = .ok moved := by
      simp only [moveFunds, if_neg (UInt64.not_lt.2 hcovered)]
      -- only the balance of another receiver can grow out of a word
      by_cases hself : sender = receiver
      · rw [if_pos hself]
        exact ⟨b, rfl⟩
      · rw [if_neg hself, addChecked?, if_pos (hroom hself)]
        exact ⟨_, rfl⟩
    obtain ⟨moved, hmoved⟩ := hmoved
    rw [transfer, hsends, hmoved]
    exact ⟨_, rfl⟩

/-- A transfer that the sender can cover is made, if the total supply is a
word. -/
theorem exists_transfer (hsends : b.failingSend = false) (hne : sender ≠ receiver)
    (hcovered : amount ≤ b.balanceOf sender) (hsupply : b.totalSupply < UInt64.size) :
    ∃ b', b.transfer sender receiver amount = .ok b' := by
  refine exists_transfer_iff.2 ⟨hsends, hcovered, fun _ => ?_⟩
  -- sender and receiver hold no more than the total together
  have htogether := b.balanceOf_add_le_totalSupply hne.symm
  rw [UInt64.le_iff_toNat_le] at hcovered
  omega

end MemBank

end BlockHooks
