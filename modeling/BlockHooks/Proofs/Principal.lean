/-
BlockHooks/Proofs/Principal.lean

What stands behind the principal.

A request that funds the deposit's own module raises the principal by the
amount it asks to move, after the bank has moved it (`Funded`); a request
that is refused has done nothing (`atomic_fundModule`).  So over any run of
requests the principal rises by what the accepted ones were to bring to the
deposit, and every account ends with what it had, less what it paid, and
what it was paid (`fundModule_accounts`).

The two rises are the same as long as the pool funds nobody.  Where the pool
itself is the creator of a request that funds the deposit, the transfer is
one of an account to itself: it moves nothing, and the principal rises all
the same.
-/
import BlockHooks.Proofs.Abort
import BlockHooks.Proofs.Records
import BlockHooks.Proofs.Transfers

namespace BlockHooks

/-! ### Raising the principal -/

/-- The principal rises by the amount, and nothing else changes. -/
theorem Params.raise_ok_inv {p p' : Params} {amount : UInt64} (h : p.raise amount = .ok p') :
    p'.trustDepositValue.toNat = p.trustDepositValue.toNat + amount.toNat ∧
      p'.validate = p.validate := by
  rw [raise] at h
  split at h
  next value hvalue =>
    cases h
    exact ⟨addChecked?_eq_some_iff.1 hvalue, rfl⟩
  next => cases h

namespace Deposit

variable {d : Deposit} {msg : FundModule} {l l' : Ledger} {p p' : Params}

/-- What a request is found to raise. -/
theorem raisedParams_ok_inv {raised : Option Params}
    (h : (d.raisedParams msg).run l = (.ok raised, l')) :
    l' = l ∧ (msg.moduleName ≠ d.pools.deposit.name ∧ raised = none ∨
      msg.moduleName = d.pools.deposit.name ∧
        ∃ p p', l.params = .ok p ∧ p.raise msg.amount = .ok p' ∧ raised = some p') := by
  rw [raisedParams] at h
  split at h
  next hname =>
    rw [Action.run_bind_eq_ok_iff] at h
    obtain ⟨p, l₁, hp, h⟩ := h
    rw [Ledger.run_params, Prod.mk.injEq] at hp
    obtain ⟨hp, rfl⟩ := hp
    rw [Action.run_bind_eq_ok_iff] at h
    obtain ⟨p', l₂, hraise, h⟩ := h
    rw [Action.run_ofExcept, Prod.mk.injEq] at hraise
    obtain ⟨hraise, rfl⟩ := hraise
    cases h
    exact ⟨rfl, Or.inr ⟨hname, p, p', hp, hraise, rfl⟩⟩
  next hname =>
    cases h
    exact ⟨rfl, Or.inl ⟨hname, rfl⟩⟩

theorem run_setParams_eq_ok_iff :
    (setParams p).run l = (.ok (), l') ↔
      p.validate = .ok () ∧ (paramsItem.save p).run l = (.ok (), l') := by
  rw [setParams, Action.run_bind_eq_ok_iff]
  constructor
  · rintro ⟨⟨⟩, l₁, hvalid, hsave⟩
    rw [Action.run_mapError_eq_ok_iff, Action.run_ofExcept, Prod.mk.injEq] at hvalid
    obtain ⟨hvalid, rfl⟩ := hvalid
    exact ⟨hvalid, Action.run_mapError_eq_ok_iff.1 hsave⟩
  · rintro ⟨hvalid, hsave⟩
    refine ⟨(), l, ?_, Action.run_mapError_eq_ok_iff.2 hsave⟩
    rw [hvalid]
    rfl

/-- The parameters that were written are the parameters that are read. -/
theorem params_of_setParams (h : (setParams p).run l = (.ok (), l')) : l'.params = .ok p := by
  rw [Ledger.params_eq, paramsItem.decoded_of_save (run_setParams_eq_ok_iff.1 h).2]
  rfl

/-- A working store takes all valid parameters. -/
theorem exists_run_setParams (hworks : l.Working) (hvalid : p.validate = .ok ()) :
    ∃ l', (setParams p).run l = (.ok (), l') := by
  have hsave : ∃ l', (paramsItem.save p).run l = (.ok (), l') :=
    ⟨_, paramsItem.run_save_eq_ok_iff.2 ⟨hworks, _, rfl, rfl⟩⟩
  obtain ⟨l', hsave⟩ := hsave
  exact ⟨l', run_setParams_eq_ok_iff.2 ⟨hvalid, hsave⟩⟩

/-! ### One request -/

/-- What a request that was accepted has done to the ledger `l`. -/
inductive Funded (d : Deposit) (msg : FundModule) (l : Ledger) : Ledger → Prop
  | elsewhere {b} : msg.moduleName ≠ d.pools.deposit.name →
      l.bank.transfer msg.creator (.ofModule msg.moduleName) msg.amount = .ok b →
      Funded d msg l { l with bank := b }
  | raised {p p' b l'} : msg.moduleName = d.pools.deposit.name →
      l.params = .ok p → p.raise msg.amount = .ok p' →
      l.bank.transfer msg.creator (.ofModule msg.moduleName) msg.amount = .ok b →
      (setParams p').run { l with bank := b } = (.ok (), l') →
      Funded d msg l l'

theorem fundModule_ok_inv {event : Event} (h : (d.fundModule msg).run l = (.ok event, l')) :
    Funded d msg l l' := by
  rw [fundModule, Action.run_bind_eq_ok_iff] at h
  obtain ⟨⟨⟩, l₁, hform, h⟩ := h
  rw [Action.run_ofExcept, Prod.mk.injEq] at hform
  obtain ⟨-, rfl⟩ := hform
  rw [Action.run_bind_eq_ok_iff] at h
  obtain ⟨raised, l₂, hraised, h⟩ := h
  obtain ⟨rfl, hraised⟩ := raisedParams_ok_inv hraised
  rw [Action.run_bind_eq_ok_iff] at h
  obtain ⟨⟨⟩, l₃, hsend, h⟩ := h
  rw [Action.run_mapError_eq_ok_iff, Ledger.run_send_eq_ok_iff] at hsend
  obtain ⟨b, hsend, rfl⟩ := hsend
  rcases hraised with ⟨hname, rfl⟩ | ⟨hname, p, p', hp, hraise, rfl⟩
  · cases h
    exact .elsewhere hname hsend
  · rw [Action.run_bind_eq_ok_iff] at h
    obtain ⟨⟨⟩, l₄, hset, h⟩ := h
    cases h
    exact .raised hname hp hraise hsend hset

/-- Where the parameters are valid, a request that is refused has done
nothing: once the amount has moved, nothing can fail any more. -/
theorem atomic_fundModule (d : Deposit) (msg : FundModule) :
    Action.Atomic (fun l => ∀ p, l.params = .ok p → p.validate = .ok ())
      (d.fundModule msg : Action Ledger DepositError Event) := by
  apply Action.Atomic.bind_of_keeps (Action.Keeps.ofExcept _)
  intro _ l hvalid e l' hrun
  rcases hraised : (d.raisedParams msg).run l with ⟨err | raised, l₁⟩
  · have hsame := d.keeps_raisedParams id msg l
    rw [hraised] at hsame
    rw [Action.run_bind_error hraised] at hrun
    cases hrun
    exact hsame
  · rw [Action.run_bind_ok hraised] at hrun
    obtain ⟨rfl, ⟨hname, rfl⟩ | ⟨hname, p, p', hp, hraise, rfl⟩⟩ := raisedParams_ok_inv hraised
    · -- only the transfer may fail, and nothing is written
      refine Action.Atomic.bind_of_succeeds (p := fun _ => True) (q := fun _ => True)
        (Action.Atomic.mapError _ (atomic_send _ _ _)) ?_ ?_ l₁ trivial e l' hrun
      · exact fun _ _ => trivial
      · exact fun _ l _ => ⟨_, l, rfl⟩
    · -- the new parameters are as valid as the old ones, so the store takes them
      have hvalid' : p'.validate = .ok () := (Params.raise_ok_inv hraise).2.trans (hvalid p hp)
      refine Action.Atomic.bind_of_succeeds (p := Ledger.Working) (q := Ledger.Working)
        (Action.Atomic.mapError _ (atomic_send _ _ _)) ?_ ?_ l₁ (working_of_params hp) e l' hrun
      · exact fun _ hworks => hworks
      · intro _ l hworks
        obtain ⟨l', hset⟩ := exists_run_setParams hworks hvalid'
        exact ⟨_, l', Action.run_bind_ok hset⟩

/-- The amount a request asks to move, if it has the property `q`. -/
def share (q : FundModule → Bool) (msg : FundModule) : Nat :=
  if q msg then msg.amount.toNat else 0

/-- Whether a request is for the deposit itself. -/
def isRaising (d : Deposit) (msg : FundModule) : Bool :=
  msg.moduleName = d.pools.deposit.name

/-- Whether the amount of a request comes from `a`. -/
def isPaidBy (a : Address) (msg : FundModule) : Bool := msg.creator = a

/-- Whether the amount of a request goes to `a`. -/
def isPaidTo (a : Address) (msg : FundModule) : Bool := Address.ofModule msg.moduleName = a

theorem Funded.transfer (h : Funded d msg l l') :
    l.bank.transfer msg.creator (.ofModule msg.moduleName) msg.amount = .ok l'.bank := by
  cases h with
  | elsewhere hname hsend => exact hsend
  | raised hname hp hraise hsend hset =>
    obtain ⟨-, bs, -, rfl⟩ := paramsItem.run_save_eq_ok_iff.1 (run_setParams_eq_ok_iff.1 hset).2
    exact hsend

/-- The principal rises by the amount of a request for the deposit itself. -/
theorem Funded.principal (h : Funded d msg l l') (hp : l.params = .ok p)
    (hvalid : p.validate = .ok ()) :
    ∃ p', l'.params = .ok p' ∧ p'.validate = .ok () ∧
      p'.trustDepositValue.toNat = p.trustDepositValue.toNat + share d.isRaising msg := by
  cases h with
  | @elsewhere b hname hsend =>
    have hsame : ({ l with bank := b } : Ledger).params = l.params := Ledger.params_congr rfl
    refine ⟨p, hsame.trans hp, hvalid, ?_⟩
    rw [share, if_neg (by simpa [isRaising] using hname), Nat.add_zero]
  | @raised p₀ p' _ _ hname hp₀ hraise hsend hset =>
    rw [hp, Except.ok.injEq] at hp₀
    subst hp₀
    obtain ⟨hvalue, hform⟩ := Params.raise_ok_inv hraise
    refine ⟨p', params_of_setParams hset, hform.trans hvalid, ?_⟩
    rw [share, if_pos (by simpa [isRaising] using hname), hvalue]

/-- What an account holds and has paid is what it held and was paid. -/
theorem Funded.balance (h : Funded d msg l l') (a : Address) :
    (l'.bank.balanceOf a).toNat + share (isPaidBy a) msg
      = (l.bank.balanceOf a).toNat + share (isPaidTo a) msg := by
  simpa [share, isPaidBy, isPaidTo] using MemBank.balanceOf_transfer_add h.transfer a

/-! ### Runs of requests -/

/-- The ledger that requests leave, each made on what the one before left. -/
def afterFunding (d : Deposit) (l : Ledger) : List FundModule → Ledger
  | [] => l
  | msg :: msgs => d.afterFunding ((d.fundModule msg).run l).2 msgs

/-- The requests that are accepted. -/
def accepted (d : Deposit) (l : Ledger) : List FundModule → List FundModule
  | [] => []
  | msg :: msgs =>
    let rest := d.accepted ((d.fundModule msg).run l).2 msgs
    match ((d.fundModule msg).run l).1 with
    | .ok _ => msg :: rest
    | .error _ => rest

/-- What the requests with the property `q` ask to move together. -/
def volume (q : FundModule → Bool) (msgs : List FundModule) : Nat :=
  (msgs.map (share q)).sum

theorem afterFunding_cons {answer : Except DepositError Event} {msgs : List FundModule}
    (h : (d.fundModule msg).run l = (answer, l')) :
    d.afterFunding l (msg :: msgs) = d.afterFunding l' msgs := by
  rw [afterFunding, h]

theorem accepted_cons_of_ok {event : Event} {msgs : List FundModule}
    (h : (d.fundModule msg).run l = (.ok event, l')) :
    d.accepted l (msg :: msgs) = msg :: d.accepted l' msgs := by
  rw [accepted, h]

theorem accepted_cons_of_error {e : DepositError} {msgs : List FundModule}
    (h : (d.fundModule msg).run l = (.error e, l')) :
    d.accepted l (msg :: msgs) = d.accepted l' msgs := by
  rw [accepted, h]

theorem volume_cons (q : FundModule → Bool) (msg : FundModule) (msgs : List FundModule) :
    volume q (msg :: msgs) = share q msg + volume q msgs :=
  rfl

theorem volume_congr {q q' : FundModule → Bool} {msgs : List FundModule}
    (h : ∀ msg ∈ msgs, q msg = q' msg) : volume q msgs = volume q' msgs := by
  refine congrArg List.sum (List.map_congr_left fun msg hmsg => ?_)
  rw [share, share, h msg hmsg]

theorem volume_eq_zero {q : FundModule → Bool} {msgs : List FundModule}
    (h : ∀ msg ∈ msgs, q msg = false) : volume q msgs = 0 := by
  apply List.sum_eq_zero
  intro n hn
  obtain ⟨msg, hmsg, rfl⟩ := List.mem_map.1 hn
  rw [share, h msg hmsg]
  rfl

/-- What a run of requests does to the principal and to every account. -/
theorem exists_params_afterFunding (msgs : List FundModule) (hp : l.params = .ok p)
    (hvalid : p.validate = .ok ()) :
    ∃ p', (d.afterFunding l msgs).params = .ok p' ∧
      p'.trustDepositValue.toNat
        = p.trustDepositValue.toNat + volume d.isRaising (d.accepted l msgs) ∧
      ∀ a, ((d.afterFunding l msgs).bank.balanceOf a).toNat
            + volume (isPaidBy a) (d.accepted l msgs)
          = (l.bank.balanceOf a).toNat + volume (isPaidTo a) (d.accepted l msgs) := by
  induction msgs generalizing l p with
  | nil => exact ⟨p, hp, rfl, fun _ => rfl⟩
  | cons msg msgs ih =>
    rcases hrun : (d.fundModule msg).run l with ⟨e | event, l₁⟩
    · -- a request that is refused is as if it had not been made
      have hsame : l₁ = l := by
        refine atomic_fundModule d msg l ?_ e l₁ hrun
        intro p₀ hp₀
        rw [hp, Except.ok.injEq] at hp₀
        exact hp₀ ▸ hvalid
      rw [afterFunding_cons hrun, accepted_cons_of_error hrun, hsame]
      exact ih hp hvalid
    · have hfunded := fundModule_ok_inv hrun
      obtain ⟨p₁, hp₁, hvalid₁, hvalue₁⟩ := hfunded.principal hp hvalid
      obtain ⟨p', hp', hvalue, hbalance⟩ := ih hp₁ hvalid₁
      rw [afterFunding_cons hrun, accepted_cons_of_ok hrun]
      refine ⟨p', hp', ?_, fun a => ?_⟩
      · rw [volume_cons, hvalue, hvalue₁, Nat.add_assoc]
      · have hfirst := hfunded.balance a
        have hrest := hbalance a
        rw [volume_cons, volume_cons]
        omega

/-- **What funding does to principal and pool.**  A request for the deposit's
own module that is accepted raises the principal by its amount; it moves that
amount from the creator to the pool, unless the pool is the creator, and then
it moves nothing.  Over a run of requests, of which some may be refused, the
principal rises by what the accepted ones for the deposit amount to, and
every account ends with what it had, less what it paid, and what it was paid.
So principal and pool rise by the same, if the pool funds nobody and is paid
under the deposit's name only. -/
theorem fundModule_accounts (d : Deposit) (l : Ledger) (p : Params) (hp : l.params = .ok p)
    (hvalid : p.validate = .ok ()) :
    (∀ msg event l', (d.fundModule msg).run l = (.ok event, l') →
      msg.moduleName = d.pools.deposit.name →
      (∃ p', l'.params = .ok p' ∧
        p'.trustDepositValue.toNat = p.trustDepositValue.toNat + msg.amount.toNat) ∧
      (msg.creator ≠ d.pools.deposit.address →
        (l'.bank.balanceOf d.pools.deposit.address).toNat
            = (l.bank.balanceOf d.pools.deposit.address).toNat + msg.amount.toNat ∧
          (l'.bank.balanceOf msg.creator).toNat + msg.amount.toNat
            = (l.bank.balanceOf msg.creator).toNat) ∧
      (msg.creator = d.pools.deposit.address → l'.bank.balances = l.bank.balances)) ∧
    ∀ msgs, ∃ p', (d.afterFunding l msgs).params = .ok p' ∧
      p'.trustDepositValue.toNat
        = p.trustDepositValue.toNat + volume d.isRaising (d.accepted l msgs) ∧
      (∀ a, ((d.afterFunding l msgs).bank.balanceOf a).toNat
            + volume (isPaidBy a) (d.accepted l msgs)
          = (l.bank.balanceOf a).toNat + volume (isPaidTo a) (d.accepted l msgs)) ∧
      ((∀ msg ∈ d.accepted l msgs, msg.creator ≠ d.pools.deposit.address ∧
          (Address.ofModule msg.moduleName = d.pools.deposit.address →
            msg.moduleName = d.pools.deposit.name)) →
        p'.trustDepositValue.toNat + (l.bank.balanceOf d.pools.deposit.address).toNat
          = p.trustDepositValue.toNat
            + ((d.afterFunding l msgs).bank.balanceOf d.pools.deposit.address).toNat) := by
  have hpool : Address.ofModule d.pools.deposit.name = d.pools.deposit.address :=
    d.pools.deposit.address_eq.symm
  constructor
  · intro msg event l' hrun hname
    have hfunded := fundModule_ok_inv hrun
    have hsend := hfunded.transfer
    rw [hname, hpool] at hsend
    obtain ⟨p', hp', -, hvalue⟩ := hfunded.principal hp hvalid
    rw [share, if_pos (by simpa [isRaising] using hname)] at hvalue
    refine ⟨⟨p', hp', hvalue⟩, fun hother => ?_, fun hself => ?_⟩
    · exact (MemBank.balanceOf_transfer hsend hother).symm
    · rw [hself] at hsend
      exact MemBank.balances_transfer_self hsend
  · intro msgs
    obtain ⟨p', hp', hvalue, hbalance⟩ := exists_params_afterFunding (d := d) msgs hp hvalid
    refine ⟨p', hp', hvalue, hbalance, fun hothers => ?_⟩
    have hpaid : volume (isPaidBy d.pools.deposit.address) (d.accepted l msgs) = 0 :=
      volume_eq_zero fun msg hmsg => by simpa [isPaidBy] using (hothers msg hmsg).1
    -- what comes to the pool comes under the name that raises the principal
    have hreceived : volume (isPaidTo d.pools.deposit.address) (d.accepted l msgs)
        = volume d.isRaising (d.accepted l msgs) := by
      refine volume_congr fun msg hmsg => decide_eq_decide.2 ⟨(hothers msg hmsg).2, fun hname => ?_⟩
      rw [hname, hpool]
    have hsum := hbalance d.pools.deposit.address
    rw [hpaid, hreceived] at hsum
    omega

end Deposit

namespace Scenario

/-! ### Funding the deposit -/

/-- The account that the requests come from. -/
def funder : Address := ⟨"verana1funder"⟩

/-- No principal yet, and one account that holds something. -/
def treasury (account : Address) (amount : UInt64) : Ledger :=
  { ((Deposit.setParams Params.default).run Ledger.empty).2 with
    bank := MemBank.empty.fund account amount }

/-- Two requests for the deposit and one for another module are accepted; one
asks for more than there is. -/
def fundings : List FundModule := [
  ⟨funder, "trust_deposit", 400⟩,
  ⟨funder, "yield_pool", 100⟩,
  ⟨funder, "trust_deposit", 501⟩,
  ⟨funder, "trust_deposit", 250⟩]

/-- The pool asks to fund the deposit with what it holds. -/
def selfFunding : FundModule := ⟨deposit.pools.deposit.address, "trust_deposit", 400⟩

end Scenario

open Scenario in
/-- The principal and the pool rise from nothing to the same sum. -/
theorem Deposit.fundModule_accounts_fundings :
    (treasury funder 1000).params = .ok Params.default ∧ Params.default.validate = .ok () ∧
      deposit.accepted (treasury funder 1000) fundings
        = fundings.eraseIdx 2 ∧
      ∃ p', (deposit.afterFunding (treasury funder 1000) fundings).params = .ok p' ∧
        p'.trustDepositValue.toNat = 650 ∧
        ((deposit.afterFunding (treasury funder 1000) fundings).bank.balanceOf
          deposit.pools.deposit.address).toNat = 650 := by
  have hparams : (treasury funder 1000).params = .ok Params.default := by
    decide +kernel
  have hvalid : Params.default.validate = .ok () := by
    decide
  have haccepted : deposit.accepted (treasury funder 1000) fundings = fundings.eraseIdx 2 := by
    decide +kernel
  have hothers : ∀ msg ∈ fundings.eraseIdx 2, msg.creator ≠ deposit.pools.deposit.address ∧
      (Address.ofModule msg.moduleName = deposit.pools.deposit.address →
        msg.moduleName = deposit.pools.deposit.name) := by
    decide +kernel
  have hvolume : Deposit.volume deposit.isRaising (fundings.eraseIdx 2) = 650 := by
    decide +kernel
  have hpool : (treasury funder 1000).bank.balanceOf deposit.pools.deposit.address = 0 := by
    decide +kernel
  obtain ⟨-, hruns⟩ :=
    Deposit.fundModule_accounts deposit (treasury funder 1000) Params.default hparams hvalid
  obtain ⟨p', hp', hvalue, -, hrise⟩ := hruns fundings
  rw [haccepted] at hvalue hrise
  have hsame := hrise hothers
  have hnothing : (0 : UInt64).toNat = 0 := rfl
  rw [hvalue, hvolume, hpool, hnothing, Nat.add_zero] at hsame
  rw [hvolume] at hvalue
  exact ⟨hparams, hvalid, haccepted, p', hp', hvalue, (Nat.add_left_cancel hsame).symm⟩

open Scenario in
/-- The request of the pool is accepted: the principal rises, and nothing has
come to the pool. -/
theorem Deposit.fundModule_raises_unbacked :
    deposit.pools.deposit.address.validate = .ok () ∧
      (treasury deposit.pools.deposit.address 400).params = .ok Params.default ∧
      ((deposit.fundModule selfFunding).run
        (treasury deposit.pools.deposit.address 400)).1.isOk = true ∧
      ((deposit.fundModule selfFunding).run
        (treasury deposit.pools.deposit.address 400)).2.params
        = .ok { Params.default with trustDepositValue := 400 } ∧
      (treasury deposit.pools.deposit.address 400).bank.balanceOf
        deposit.pools.deposit.address = 400 ∧
      ((deposit.fundModule selfFunding).run
        (treasury deposit.pools.deposit.address 400)).2.bank.balanceOf
        deposit.pools.deposit.address = 400 := by
  decide +kernel

end BlockHooks
