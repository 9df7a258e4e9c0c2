/-
BlockHooks/Proofs/FailClosed.lean

Which transactions are admitted, whatever the store holds.

Nothing is assumed of the store: any bytes may stand under any keys, and all
its operations may fail.  The keeper of the groups is any that answers
look-ups without changing itself.

An operator is on the whitelist exactly if the store works, all that it holds
under the keys of the registry can be read as records, and one of them names
the operator (`run_admits_eq_true_iff`).  A record that cannot be read thus
keeps everybody out; it lets nobody in.  The gates let a transaction through
exactly if each of its messages is in order (`run_checkMsgs_eq_ok_iff`), and
`Hooks.checkTx_eq_ok_iff` puts the two together.
-/
import BlockHooks.Proofs.Admission
import BlockHooks.Proofs.Initialised
import BlockHooks.Proofs.UniqueForms

namespace BlockHooks

open BlockHooks.Action (Keeps)

/-! ### A store beside anything else -/

/-- A store in memory, beside whatever else a host keeps. -/
structure WithStore (β : Type) where
  store : MemStore
  others : β

namespace WithStore

variable {β ε α : Type}

/-- Acts on the store alone. -/
def onStore (x : Action MemStore ε α) : Action (WithStore β) ε α :=
  x.onPart store fun s w => { w with store := s }

/-- Acts on everything but the store. -/
def onOthers (x : Action β ε α) : Action (WithStore β) ε α :=
  x.onPart others fun b w => { w with others := b }

instance : KvStore (WithStore β) where
  get key := onStore (KvStore.get key)
  set key value := onStore (KvStore.set key value)
  delete key := onStore (KvStore.delete key)
  scan front := onStore (KvStore.scan front)

instance [GroupKeeper β] : GroupKeeper (WithStore β) where
  proposal id := onOthers (GroupKeeper.proposal id)
  groups request := onOthers (GroupKeeper.groups request)
  policies groupId request := onOthers (GroupKeeper.policies groupId request)
  proposals policy request := onOthers (GroupKeeper.proposals policy request)
  exec block call := onOthers (GroupKeeper.exec block call)

instance [LogSink β] : LogSink (WithStore β) where
  write record w := { w with others := LogSink.write record w.others }

theorem run_scan (front : Bytes) (w : WithStore β) : (KvStore.scan front).run w =
    (if w.store.failing then .error (.backend "injected store failure")
      else .ok (w.store.entriesUnder front), w) := by
  show (((KvStore.scan front).run w.store).1,
    { w with store := ((KvStore.scan front).run w.store).2 }) = _
  rcases h : w.store.failing with - | -
  · simp [KvStore.scan, h]
  · simp [KvStore.scan, h]

end WithStore

/-! ### Reading all records -/

/-- A list is read from another exactly if it is item by item. -/
theorem mapM_eq_ok_iff {ε α β : Type} {f : α → Except ε β} {as : List α} {bs : List β} :
    as.mapM f = .ok bs ↔ List.Forall₂ (fun a b => f a = .ok b) as bs := by
  induction as generalizing bs with
  | nil =>
    rw [List.mapM_nil, List.forall₂_nil_left_iff]
    exact ⟨fun h => (Except.ok.inj h).symm, fun h => congrArg _ h.symm⟩
  | cons a as ih =>
    rw [List.mapM_cons, List.forall₂_cons_left_iff]
    constructor
    · intro h
      obtain ⟨b, hb, h⟩ := bind_eq_ok_iff.1 h
      obtain ⟨bs', hbs, h⟩ := bind_eq_ok_iff.1 h
      exact ⟨b, bs', hb, ih.1 hbs, (Except.ok.inj h).symm⟩
    · rintro ⟨b, bs', hb, hbs, rfl⟩
      exact bind_eq_ok_iff.2 ⟨b, hb, bind_eq_ok_iff.2 ⟨bs', ih.2 hbs, rfl⟩⟩

namespace MemStore

/-- The value of an entry of the registry, read as a record. -/
def recordAt (e : Bytes × Bytes) : Except StoreError Validator :=
  Stored.decode e.1 Registry.validators.discriminator e.2

/-- The store works, and every value under a key of the registry is the form
of some record. -/
def Readable (s : MemStore) : Prop :=
  s.failing = false ∧ ∀ key bs, s.entries.get? key = some bs →
    Registry.validators.base <+: key → ∃ v, recordAt (key, bs) = .ok v

/-- A record under a key of the registry names the operator. -/
def Names (s : MemStore) (operator : Address) : Prop :=
  ∃ key bs v, s.entries.get? key = some bs ∧ Registry.validators.base <+: key ∧
    recordAt (key, bs) = .ok v ∧ v.operator = operator

end MemStore

namespace Registry

variable {β : Type} {w w' : WithStore β} {operator : Address}

theorem decodeEntry_eq_ok_iff {e : Bytes × Bytes} {r : String × Validator} :
    validators.decodeEntry e = .ok r ↔
      MemStore.recordAt e = .ok r.2 ∧ r.1 = lossyText (e.1.drop validators.base.length) := by
  rw [Collection.decodeEntry, bind_eq_ok_iff]
  constructor
  · rintro ⟨v, hread, h⟩
    cases h
    exact ⟨hread, rfl⟩
  · rintro ⟨hread, hkey⟩
    exact ⟨r.2, hread, by rw [← hkey]; rfl⟩

/-- The entries of the registry are read, one for one, as keys and records. -/
abbrev ReadAs (s : MemStore) : List (String × Validator) → Prop :=
  List.Forall₂ (fun e r => validators.decodeEntry e = .ok r) (s.entriesUnder validators.base)

/-- What can be read entry by entry can be read together. -/
theorem readable_iff {s : MemStore} :
    s.Readable ↔ s.failing = false ∧ ∃ rs, ReadAs s rs := by
  constructor
  · rintro ⟨hworks, hreadable⟩
    have hall : ∀ e ∈ s.entriesUnder validators.base, ∃ r, validators.decodeEntry e = .ok r := by
      rintro ⟨key, bs⟩ he
      obtain ⟨hget, hbegins⟩ := MemStore.mem_entriesUnder_iff.1 he
      obtain ⟨v, hread⟩ := hreadable key bs hget hbegins
      exact ⟨(_, v), decodeEntry_eq_ok_iff.2 ⟨hread, rfl⟩⟩
    obtain ⟨rs, hrs⟩ := exists_partners hall
    exact ⟨hworks, rs, hrs.flip⟩
  · rintro ⟨hworks, rs, hrs⟩
    refine ⟨hworks, fun key bs hget hbegins => ?_⟩
    obtain ⟨r, -, hread⟩ :=
      exists_partner_of_mem hrs (MemStore.mem_entriesUnder_iff.2 ⟨hget, hbegins⟩)
    exact ⟨r.2, (decodeEntry_eq_ok_iff.1 hread).1⟩

/-- If all entries are read, an operator is named by one of what they are
read as. -/
theorem names_iff {s : MemStore} {rs : List (String × Validator)} (hrs : ReadAs s rs) :
    s.Names operator ↔ ∃ r ∈ rs, r.2.operator = operator := by
  constructor
  · rintro ⟨key, bs, v, hget, hbegins, hread, hoperator⟩
    obtain ⟨r, hr, hread'⟩ :=
      exists_partner_of_mem hrs (MemStore.mem_entriesUnder_iff.2 ⟨hget, hbegins⟩)
    have hsame := (decodeEntry_eq_ok_iff.1 hread').1
    rw [hread, Except.ok.injEq] at hsame
    exact ⟨r, hr, hsame ▸ hoperator⟩
  · rintro ⟨r, hr, hoperator⟩
    obtain ⟨⟨key, bs⟩, he, hread⟩ := exists_partner_of_mem hrs.flip hr
    obtain ⟨hget, hbegins⟩ := MemStore.mem_entriesUnder_iff.1 he
    exact ⟨key, bs, r.2, hget, hbegins, (decodeEntry_eq_ok_iff.1 hread).1, hoperator⟩

/-- All records are read, or none. -/
theorem run_entries_eq_ok_iff {rs : List (String × Validator)} :
    validators.entries.run w = (.ok rs, w') ↔
      w' = w ∧ w.store.failing = false ∧ ReadAs w.store rs := by
  rw [Collection.entries, Action.run_bind, WithStore.run_scan, ReadAs, ← mapM_eq_ok_iff]
  rcases w.store.failing with - | -
  · show ((w.store.entriesUnder validators.base).mapM validators.decodeEntry, w) = _ ↔ _
    rw [Prod.mk.injEq]
    exact ⟨fun h => ⟨h.2.symm, rfl, h.1⟩, fun h => ⟨h.2.2, h.1.symm⟩⟩
  · constructor
    · intro h
      cases h
    · rintro ⟨-, h, -⟩
      cases h

theorem run_isListed_eq_true_iff_exists : (isListed operator).run w = (.ok true, w') ↔
    ∃ rs, validators.entries.run w = (.ok rs, w') ∧ ∃ r ∈ rs, r.2.operator = operator := by
  rw [isListed, allValidators, Action.run_bind, Action.run_bind, Action.run_mapError]
  rcases validators.entries.run w with ⟨e | rs, w''⟩
  · constructor
    · intro h
      cases h
    · rintro ⟨_, h, -⟩
      cases h
  · show (Except.ok ((rs.map (·.2)).any fun v => v.operator == operator), w'') = _ ↔ _
    simp [and_comm]

theorem run_isListed_eq_true_iff : (isListed operator).run w = (.ok true, w') ↔
    w' = w ∧ w.store.Readable ∧ w.store.Names operator := by
  rw [run_isListed_eq_true_iff_exists]
  constructor
  · rintro ⟨rs, hentries, hnamed⟩
    obtain ⟨hsame, hworks, hrs⟩ := run_entries_eq_ok_iff.1 hentries
    exact ⟨hsame, readable_iff.2 ⟨hworks, rs, hrs⟩, (names_iff hrs).2 hnamed⟩
  · rintro ⟨rfl, hreadable, hnames⟩
    obtain ⟨hworks, rs, hrs⟩ := readable_iff.1 hreadable
    exact ⟨rs, run_entries_eq_ok_iff.2 ⟨rfl, hworks, hrs⟩, (names_iff hrs).1 hnames⟩

/-- The whitelist admits an operator exactly if all records can be read and
one of them names the operator. -/
theorem run_admits_eq_true_iff [LogSink β] : (admits operator).run w = (true, w') ↔
    w' = w ∧ w.store.Readable ∧ w.store.Names operator := by
  rw [← run_isListed_eq_true_iff, admits, Action.run_state_bind, Action.run_outcome]
  rcases (isListed operator).run w with ⟨e | listed, w''⟩
  · constructor
    · intro h
      cases h
    · intro h
      cases h
  · show (listed, w'') = _ ↔ _
    simp

end Registry

/-! ### Gates that a message passes -/

namespace Gate

variable {σ : Type}

/-- The gate lets through the messages that are in order, and when it does it
has changed nothing. -/
def Admits (gate : Gate σ) (InOrder : σ → TxContext → Msg → Prop) : Prop :=
  ∀ context msg s s', (gate context msg).run s = (.ok (), s') ↔ s' = s ∧ InOrder s context msg

theorem checkAll_singleton (gate : Gate σ) : checkAll [gate] = gate := by
  funext context msg
  exact bind_pure_unit (x := gate context msg)

theorem Admits.both {first second : Gate σ} {P Q : σ → TxContext → Msg → Prop}
    (hfirst : first.Admits P) (hsecond : second.Admits Q) :
    Admits (checkAll [first, second]) fun s context msg => P s context msg ∧ Q s context msg := by
  intro context msg s s'
  rw [checkAll, checkAll_singleton, Action.run_bind_eq_ok_iff]
  constructor
  · rintro ⟨⟨⟩, t, h, h'⟩
    obtain ⟨rfl, hp⟩ := (hfirst context msg s t).1 h
    obtain ⟨rfl, hq⟩ := (hsecond context msg t s').1 h'
    exact ⟨rfl, hp, hq⟩
  · rintro ⟨rfl, hp, hq⟩
    exact ⟨(), s', (hfirst context msg s' s').2 ⟨rfl, hp⟩,
      (hsecond context msg s' s').2 ⟨rfl, hq⟩⟩

/-- All messages pass exactly if each of them is in order. -/
theorem run_checkMsgs_eq_ok_iff {gates : List (Gate σ)} {InOrder : σ → TxContext → Msg → Prop}
    (h : Admits (checkAll gates) InOrder) {context : TxContext} {msgs : List Msg} {s s' : σ} :
    (checkMsgs gates context msgs).run s = (.ok (), s') ↔
      s' = s ∧ ∀ msg ∈ msgs, InOrder s context msg := by
  induction msgs with
  | nil => simp [checkMsgs, eq_comm]
  | cons msg msgs ih =>
    rw [checkMsgs, Action.run_bind_eq_ok_iff, List.forall_mem_cons]
    constructor
    · rintro ⟨⟨⟩, t, hfirst, hrest⟩
      obtain ⟨rfl, hmsg⟩ := (h context msg s t).1 hfirst
      obtain ⟨rfl, hmsgs⟩ := ih.1 hrest
      exact ⟨rfl, hmsg, hmsgs⟩
    · rintro ⟨rfl, hmsg, hmsgs⟩
      exact ⟨(), s', (h context msg s' s').2 ⟨rfl, hmsg⟩, ih.2 ⟨rfl, hmsgs⟩⟩

/-- An execution is in order if its proposal is known, was accepted, and its
voting period has ended. -/
def Due (proposal : UInt64 → Action σ GroupError Proposal) (s : σ) (context : TxContext) :
    Msg → Prop
  | .groupExec request => ∃ p, ((proposal request.proposalId).run s).1 = .ok p ∧
      p.status = .accepted ∧ p.votingPeriodEnd ≤ context.block.time
  | _ => True

theorem admits_proposalTiming {proposal : UInt64 → Action σ GroupError Proposal}
    (hlookup : ∀ n, Keeps id (proposal n)) :
    (Gate.proposalTiming proposal).Admits (Due proposal) := by
  intro context msg s s'
  cases msg with
  | groupExec request =>
    have hkeeps : ((proposal request.proposalId).run s).2 = s := hlookup request.proposalId s
    rw [proposalTiming, Action.run_bind, Action.run_mapError, Due, hkeeps]
    -- the look-up, the time and the status, in the order of the gate
    rcases ((proposal request.proposalId).run s).1 with cause | p
    · constructor
      · intro h
        cases h
      · rintro ⟨-, _, h, -⟩
        cases h
    show Action.run (if context.block.time < p.votingPeriodEnd then _ else if _ then _ else _) s
      = _ ↔ _
    split
    next hearly =>
      constructor
      · intro h
        cases h
      · rintro ⟨-, _, hp, -, hended⟩
        cases hp
        exact absurd hearly (Int64.not_lt.2 hended)
    next hended =>
      split
      next hstatus =>
        constructor
        · intro h
          cases h
        · rintro ⟨-, _, hp, haccepted, -⟩
          cases hp
          exact absurd haccepted hstatus
      next haccepted =>
        constructor
        · intro h
          exact ⟨(congrArg Prod.snd h).symm, p, rfl, not_not.1 haccepted, Int64.not_lt.1 hended⟩
        · rintro ⟨rfl, -⟩
          rfl
  | createValidator request => simp [proposalTiming, Due, eq_comm]
  | other url => simp [proposalTiming, Due, eq_comm]

/-- An operator is in order if the whitelist has it. -/
def OnList (Listed : σ → Address → Prop) (s : σ) : Msg → Prop
  | .createValidator request => Listed s request.operator
  | _ => True

theorem admits_whitelist {isListed : Address → StateM σ Bool} {Listed : σ → Address → Prop}
    (h : ∀ operator s s', (isListed operator).run s = (true, s') ↔ s' = s ∧ Listed s operator) :
    (Gate.whitelist isListed).Admits fun s _ => OnList Listed s := by
  intro context msg s s'
  cases msg with
  | createValidator request =>
    show _ ↔ s' = s ∧ Listed s request.operator
    rw [← h, whitelist, Action.run_bind, Action.run_ofState]
    rcases (isListed request.operator).run s with ⟨listed, t⟩
    rcases listed with - | -
    · constructor
      · intro h
        cases h
      · intro h
        cases h
    · show (Except.ok (), t) = (Except.ok (), s') ↔ (true, t) = (true, s')
      rw [Prod.mk.injEq, Prod.mk.injEq]
      exact and_congr (iff_of_true rfl rfl) Iff.rfl
  | groupExec request => simp [whitelist, OnList, eq_comm]
  | other url => simp [whitelist, OnList, eq_comm]

end Gate

/-! ### The hook -/

namespace Hooks

variable {σ : Type} [KvStore σ] [GroupKeeper σ] [LogSink σ]

/-- The handler that admits transactions. -/
def handler (host : HostStages σ) : Handler σ :=
  ⟨[host.setupContext, host.validateBasic, Handler.gates GroupKeeper.proposal Registry.admits,
    host.deductFee, host.incrementSequence]⟩

theorem run_checkTx (host : HostStages σ) (context : TxContext) (tx : Tx) (simulate : Bool)
    (n : Node σ) : (checkTx host context tx simulate).run n =
      ((((handler host).handle context tx simulate).run n.world).1,
        ⟨(((handler host).handle context tx simulate).run n.world).2,
          n.metrics.recordAdmission (((handler host).handle context tx simulate).run n.world).1⟩) :=
  rfl

variable {β : Type} [GroupKeeper β]

/-- What a message must be like for its transaction to be admitted. -/
def InOrder (w : WithStore β) (context : TxContext) (msg : Msg) : Prop :=
  Gate.Due GroupKeeper.proposal w context msg ∧
    Gate.OnList (fun w operator => w.store.Readable ∧ w.store.Names operator) w msg

theorem forall_inOrder_iff {w : WithStore β} {context : TxContext} {msgs : List Msg} :
    (∀ msg ∈ msgs, InOrder w context msg) ↔
      (∀ request, Msg.groupExec request ∈ msgs → ∃ p : Proposal,
        ((GroupKeeper.proposal request.proposalId).run w.others).1 = .ok p ∧
          p.status = .accepted ∧ p.votingPeriodEnd ≤ context.block.time) ∧
      ∀ request, Msg.createValidator request ∈ msgs →
        w.store.Readable ∧ w.store.Names request.operator := by
  constructor
  · intro h
    exact ⟨fun request hmem => (h _ hmem).1, fun request hmem => (h _ hmem).2⟩
  · rintro ⟨hexecutions, hcreations⟩ msg hmem
    cases msg with
    | groupExec request => exact ⟨hexecutions request hmem, trivial⟩
    | createValidator request => exact ⟨trivial, hcreations request hmem⟩
    | other url => exact ⟨trivial, trivial⟩

variable [LogSink β]

theorem admits_gates (hlookup : ∀ n, Keeps id (GroupKeeper.proposal n : Action β GroupError _)) :
    Gate.Admits (Gate.checkAll
      [Gate.proposalTiming GroupKeeper.proposal, Gate.whitelist Registry.admits])
      (InOrder (β := β)) := by
  apply Gate.Admits.both
  · apply Gate.admits_proposalTiming
    intro n w
    show { w with others := ((GroupKeeper.proposal n).run w.others).2 } = w
    have hsame : ((GroupKeeper.proposal n : Action β GroupError _).run w.others).2 = w.others :=
      hlookup n w.others
    rw [hsame]
  · exact Gate.admits_whitelist fun _ _ _ => Registry.run_admits_eq_true_iff

/-- Behind stages that forward everything, the gates decide. -/
theorem run_handle_permissive_eq_ok_iff
    (hlookup : ∀ n, Keeps id (GroupKeeper.proposal n : Action β GroupError _))
    {context c : TxContext} {tx : Tx} {simulate : Bool} {w w' : WithStore β} :
    ((handler .permissive).handle context tx simulate).run w = (.ok c, w') ↔
      c = context ∧ w' = w ∧ ∀ msg ∈ tx.msgs, InOrder w context msg := by
  have hstages : ((Rest.ofStages (handler .permissive).stages context tx simulate).run w
      = (.ok c, w')) ↔ c = context ∧ w' = w ∧ ∀ msg ∈ tx.msgs, InOrder w context msg := by
    show (Gate.checkMsgs [Gate.proposalTiming GroupKeeper.proposal, Gate.whitelist Registry.admits]
      context tx.msgs >>= fun _ => pure context).run w = _ ↔ _
    rw [Action.run_bind_eq_ok_iff, ← Gate.run_checkMsgs_eq_ok_iff (admits_gates hlookup)]
    constructor
    · rintro ⟨⟨⟩, t, hmsgs, h⟩
      cases h
      exact ⟨rfl, hmsgs⟩
    · rintro ⟨rfl, hmsgs⟩
      exact ⟨(), w', hmsgs, rfl⟩
  -- the handler answers as its stages do, and it logs rejections only
  rw [Handler.run_handle, ← hstages]
  rcases (Rest.ofStages (handler .permissive).stages context tx simulate).run w with ⟨e | c', w''⟩
  · constructor
    · intro h
      cases h
    · intro h
      cases h
  · exact Iff.rfl

/-- **Admission fails closed.**  Whatever the store holds, and whether or not
it works, a transaction behind stages that forward everything is admitted
exactly if every execution names a known proposal that was accepted and whose
voting period has ended at the time of the block, and, if operators want to
join, the store works, every value under the keys of the registry is the form
of a record, and each of the operators is named by one of these records.
Then the context is handed back as it came, and nothing has changed but the
count of transactions admitted. -/
theorem checkTx_eq_ok_iff
    (hlookup : ∀ n, Keeps id (GroupKeeper.proposal n : Action β GroupError _))
    (context c : TxContext) (tx : Tx) (simulate : Bool) (n n' : Node (WithStore β)) :
    (checkTx .permissive context tx simulate).run n = (.ok c, n') ↔
      c = context ∧ n' = { n with metrics := n.metrics.recordAdmission (.ok context) } ∧
      (∀ request, Msg.groupExec request ∈ tx.msgs → ∃ p : Proposal,
        ((GroupKeeper.proposal request.proposalId).run n.world.others).1 = .ok p ∧
          p.status = .accepted ∧ p.votingPeriodEnd ≤ context.block.time) ∧
      ∀ request, Msg.createValidator request ∈ tx.msgs →
        n.world.store.Readable ∧ n.world.store.Names request.operator := by
  have hhandle : ∀ w', ((handler .permissive).handle context tx simulate).run n.world
      = (.ok c, w') ↔ c = context ∧ w' = n.world ∧ ∀ msg ∈ tx.msgs, InOrder n.world context msg :=
    fun _ => run_handle_permissive_eq_ok_iff hlookup
  -- admission runs the handler and counts its answer
  rw [run_checkTx, ← forall_inOrder_iff]
  rcases hrun : ((handler .permissive).handle context tx simulate).run n.world with ⟨r, w⟩
  rw [hrun] at hhandle
  constructor
  · intro h
    cases h
    obtain ⟨rfl, rfl, hmsgs⟩ := (hhandle w).1 rfl
    exact ⟨rfl, rfl, hmsgs⟩
  · rintro ⟨rfl, rfl, hmsgs⟩
    cases (hhandle n.world).2 ⟨rfl, rfl, hmsgs⟩
    rfl

end Hooks

namespace Scenario

/-! ### One record, and one value that is none -/

/-- A record under a key that no index has. -/
def namingStore : MemStore :=
  MemStore.empty.put (Registry.validators.base ++ [0xff])
    (1 :: ([utf8 "m1", utf8 "m1", utf8 "veranavaloper1a", [], utf8 "active"].flatMap Codec.frame
      ++ Codec.littleEndian 8 0))

/-- The same with a value behind another discriminator. -/
def spoiltStore : MemStore := namingStore.put (Registry.validators.base ++ [0]) [2]

/-- Proposal 1 was accepted, and its voting period ends at second 1000. -/
def votedOn : Ledger :=
  { Ledger.empty with
    groups := MemGroups.empty.addProposal ⟨1, ⟨"verana1policy"⟩, .accepted, 1000, .notRun⟩ }

/-- A node with the given store that has counted nothing yet. -/
def nodeWith (store : MemStore) : Node (WithStore Ledger) := ⟨⟨store, votedOn⟩, .zero⟩

/-- A check at the second when the voting period ends. -/
def dueContext : TxContext := .initial ⟨7, 1000⟩ .check

/-- An execution and an operator who wants to join. -/
def joining : Tx :=
  ⟨[.groupExec ⟨1, ⟨"verana1policy"⟩⟩, .createValidator ⟨⟨"veranavaloper1a"⟩, "node"⟩]⟩

theorem readable_namingStore : namingStore.Readable := by
  refine ⟨rfl, fun key bs hget _ => ?_⟩
  have hentry : (key, bs) ∈ namingStore.entries.entries := Table.mem_entries_iff.2 hget
  rw [List.mem_singleton.1 hentry]
  exact ⟨⟨"m1", "m1", ⟨"veranavaloper1a"⟩, "", "active", 0⟩, by decide +kernel⟩

theorem names_namingStore : namingStore.Names ⟨"veranavaloper1a"⟩ :=
  ⟨Registry.validators.base ++ [0xff], _, ⟨"m1", "m1", ⟨"veranavaloper1a"⟩, "", "active", 0⟩,
    rfl, List.prefix_append _ _, by decide +kernel, rfl⟩

end Scenario

open Scenario in
/-- The operator is admitted, and no longer once one value is spoilt. -/
theorem Hooks.checkTx_eq_ok_iff_spoilt :
    (∀ n, Keeps id (GroupKeeper.proposal n : Action Ledger GroupError _)) ∧
      (Hooks.checkTx .permissive dueContext joining false).run (nodeWith namingStore)
        = (.ok dueContext, { nodeWith namingStore with
          metrics := HookMetrics.zero.recordAdmission (.ok dueContext) }) ∧
      ∀ c n', (Hooks.checkTx .permissive dueContext joining false).run (nodeWith spoiltStore)
        ≠ (.ok c, n') := by
  have hlookup : ∀ n, Keeps id (GroupKeeper.proposal n : Action Ledger GroupError _) :=
    fun _ _ => rfl
  refine ⟨hlookup, (Hooks.checkTx_eq_ok_iff hlookup _ _ _ _ _ _).2 ⟨rfl, rfl, ?_, ?_⟩, ?_⟩
  · intro request hmem
    rcases List.mem_cons.1 hmem with h | h
    · cases h
      exact ⟨⟨1, ⟨"verana1policy"⟩, .accepted, 1000, .notRun⟩, rfl, rfl, by decide⟩
    · cases List.mem_singleton.1 h
  · intro request hmem
    rcases List.mem_cons.1 hmem with h | h
    · cases h
    · cases List.mem_singleton.1 h
      exact ⟨readable_namingStore, names_namingStore⟩
  · -- the record is still there, but not all values can be read
    intro c n' hrun
    obtain ⟨-, -, -, hcreations⟩ := (Hooks.checkTx_eq_ok_iff hlookup _ _ _ _ _ _).1 hrun
    obtain ⟨⟨-, hreadable⟩, -⟩ := hcreations ⟨⟨"veranavaloper1a"⟩, "node"⟩ (by decide)
    obtain ⟨v, hread⟩ :=
      hreadable (Registry.validators.base ++ [0]) [2] rfl (List.prefix_append _ _)
    cases hread

end BlockHooks
