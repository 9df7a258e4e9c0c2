/-
BlockHooks/Proofs/Reconciliation.lean

The metrics agree with the books.

A host calls the hooks in any order, as often as it likes, and between two
calls it may do to the ledger whatever it likes.  What one call can do is said
once (`Made`): a check counts its own result and runs nothing but the stages
of the host and look-ups, a settlement is counted if it succeeds, and a scan
asks the book for executions and counts how they were answered.

So the metrics after a run of calls are those of its answers
(`metrics_nodeAfter`), and each answer was given for what happened to the
ledger in its call.  `metrics_reconcile` puts the two together: what is counted
is the number of checks and of rejections under each code, the sums of what
the reports say and what the pools have received, and the number of executions
that the book has recorded and that it has answered with success.
-/
import Mathlib
import BlockHooks.Proofs.Abort
import BlockHooks.Proofs.FailClosed
import BlockHooks.Proofs.Replay
import BlockHooks.Proofs.Tally
import BlockHooks.Proofs.ValueFlow

namespace BlockHooks

open BlockHooks.Action (Keeps)

/-! ### What a check leaves alone -/

section

variable {σ γ : Type} {obs : σ → γ}

/-- A stage leaves alone what the rest leaves alone. -/
def Stage.Forwards (obs : σ → γ) (stage : Stage σ) : Prop :=
  ∀ context tx simulate (rest : Rest σ), (∀ c t f, Keeps obs (rest c t f)) →
    Keeps obs (stage context tx simulate rest)

theorem Rest.keeps_ofStages {stages : List (Stage σ)}
    (h : ∀ stage ∈ stages, Stage.Forwards obs stage) (context : TxContext) (tx : Tx)
    (simulate : Bool) : Keeps obs (Rest.ofStages stages context tx simulate) := by
  induction stages generalizing context tx simulate with
  | nil => exact Keeps.pure _
  | cons stage stages ih =>
    obtain ⟨hfirst, hrest⟩ := List.forall_mem_cons.1 h
    exact hfirst context tx simulate _ (ih hrest)

theorem Gate.keeps_checkMsgs {gates : List (Gate σ)} {context : TxContext}
    (h : ∀ gate ∈ gates, ∀ msg, Keeps obs (gate context msg)) (msgs : List Msg) :
    Keeps obs (Gate.checkMsgs gates context msgs) := by
  have hone : ∀ msg, Keeps obs (Gate.checkAll gates context msg) := by
    intro msg
    induction gates with
    | nil => exact Keeps.pure _
    | cons gate gates ih =>
      obtain ⟨hfirst, hrest⟩ := List.forall_mem_cons.1 h
      exact Keeps.bind (hfirst msg) fun _ => ih hrest
  induction msgs with
  | nil => exact Keeps.pure _
  | cons msg msgs ih => exact Keeps.bind (hone msg) fun _ => ih

theorem Gate.keeps_proposalTiming {proposal : UInt64 → Action σ GroupError Proposal}
    (h : ∀ id, Keeps obs (proposal id)) (context : TxContext) (msg : Msg) :
    Keeps obs (Gate.proposalTiming proposal context msg) := by
  cases msg with
  | groupExec request =>
    apply Keeps.bind (Keeps.mapError _ (h _))
    intro p
    exact Keeps.ite (Keeps.throw _) (Keeps.ite (Keeps.throw _) (Keeps.pure _))
  | createValidator | other => exact Keeps.pure _

theorem Gate.keeps_whitelist {isListed : Address → StateM σ Bool}
    (h : ∀ operator s, obs ((isListed operator).run s).2 = obs s) (context : TxContext)
    (msg : Msg) : Keeps obs (Gate.whitelist isListed context msg) := by
  cases msg with
  | createValidator request =>
    have hlookup : Keeps obs (Action.ofState (isListed request.operator) :
        Action σ AdmissionError Bool) := h request.operator
    exact Keeps.bind hlookup fun listed => Keeps.ite (Keeps.pure _) (Keeps.throw _)
  | groupExec | other => exact Keeps.pure _

/-- The stages of the host leave alone what `obs` sees. -/
structure HostStages.Forward (obs : σ → γ) (host : HostStages σ) : Prop where
  setupContext : Stage.Forwards obs host.setupContext
  validateBasic : Stage.Forwards obs host.validateBasic
  deductFee : Stage.Forwards obs host.deductFee
  incrementSequence : Stage.Forwards obs host.incrementSequence

end

/-- Looking an operator up changes nothing, whether or not the records can be
read. -/
theorem Registry.run_admits_snd (operator : Address) (l : Ledger) :
    ((Registry.admits operator).run l).2 = l := by
  have hrecords : Keeps id (Registry.allValidators : Action Ledger RegistryError _) := by
    apply Keeps.bind (Keeps.mapError _ ?_)
    · exact fun _ => Keeps.pure _
    · exact Keeps.bind (Ledger.keeps_scan id _) fun _ => Keeps.ofExcept _
  have hlisted : ((Registry.isListed operator).run l).2 = l :=
    Keeps.bind hrecords (fun _ => Keeps.pure _) l
  rw [Registry.admits, Action.run_state_bind, Action.run_outcome, hlisted]
  rcases ((Registry.isListed operator).run l).1 with e | listed
  · rfl
  · rfl

/-- Besides the stages of the host a check runs look-ups only. -/
theorem Hooks.keeps_handle {γ : Type} {obs : Ledger → γ} {host : HostStages Ledger}
    (h : host.Forward obs) (context : TxContext) (tx : Tx) (simulate : Bool) :
    Keeps obs ((Hooks.handler host).handle context tx simulate) := by
  have hgates : Stage.Forwards obs (Handler.gates (σ := Ledger) GroupKeeper.proposal
      Registry.admits) := by
    intro context tx simulate rest hrest
    apply Keeps.bind (Gate.keeps_checkMsgs ?_ tx.msgs)
    · exact fun _ => hrest _ _ _
    · intro gate hgate msg
      rcases List.mem_cons.1 hgate with rfl | hgate
      · exact Gate.keeps_proposalTiming (fun _ _ => rfl) context msg
      · cases List.mem_singleton.1 hgate
        refine Gate.keeps_whitelist (fun operator l => ?_) context msg
        rw [Registry.run_admits_snd]
  have hstages : ∀ stage ∈ (Hooks.handler host).stages, Stage.Forwards obs stage := by
    simp only [Hooks.handler, List.forall_mem_cons]
    exact ⟨h.setupContext, h.validateBasic, hgates, h.deductFee, h.incrementSequence,
      List.forall_mem_nil _⟩
  -- a rejection is told to the log, and the log is no part of a ledger
  have hlogged : ∀ r (l : Ledger), Handler.logged context r l = l := by
    intro r l
    rcases r with e | c
    · rfl
    · rfl
  intro l
  rw [Handler.run_handle, hlogged]
  exact Rest.keeps_ofStages hstages context tx simulate l

/-! ### Calls -/

/-- A call of one of the three hooks. -/
inductive HookCall where
  | checkTx (host : HostStages Ledger) (context : TxContext) (tx : Tx) (simulate : Bool)
  | beginBlock (block : BlockContext)
  | endBlock (block : BlockContext)

namespace HookCall

/-- Tells whether the call admits a transaction or turns it away. -/
def isCheck : HookCall → Bool
  | .checkTx _ _ _ _ => true
  | .beginBlock _ | .endBlock _ => false

/-- Makes the call; what it answers, success or error, is a value. -/
def perform (h : Hooks) : HookCall → StateM (Node Ledger) HookAnswer
  | .checkTx host context tx simulate => do
    return .checked (← (Hooks.checkTx host context tx simulate).outcome)
  | .beginBlock block => do return .settled (← (h.beginBlock block).outcome)
  | .endBlock block => do return .scanned (← h.endBlock block)

end HookCall

/-- A call, and what the host does to the ledger before it. -/
structure HookStep where
  change : Ledger → Ledger
  call : HookCall

/-- What was called, what it answered, and the node before and after it. -/
structure Visit where
  call : HookCall
  before : Node Ledger
  answer : HookAnswer
  after : Node Ledger

/-- Makes the change and then the call. -/
def HookStep.visit (h : Hooks) (n : Node Ledger) (step : HookStep) : Visit :=
  let before : Node Ledger := { n with world := step.change n.world }
  let result := (step.call.perform h).run before
  ⟨step.call, before, result.1, result.2⟩

/-- The calls of a run from `n` on. -/
def visits (h : Hooks) (n : Node Ledger) : List HookStep → List Visit
  | [] => []
  | step :: steps => step.visit h n :: visits h (step.visit h n).after steps

/-- The node after a run. -/
def nodeAfter (h : Hooks) (n : Node Ledger) : List HookStep → Node Ledger
  | [] => n
  | step :: steps => nodeAfter h (step.visit h n).after steps

/-- All that a call can do.  Whatever is answered has been counted, and nothing
else has. -/
inductive Made (h : Hooks) : Visit → Prop
  | checked {host context tx simulate before result l} :
      (((Hooks.handler host).handle context tx simulate).run before.world = (result, l)) →
      Made h ⟨.checkTx host context tx simulate, before, .checked result,
        ⟨l, before.metrics.record (.checked result)⟩⟩
  | settled {block before r l} :
      ((h.deposit.settle block).run before.world = (.ok r, l)) →
      Made h ⟨.beginBlock block, before, .settled (.ok r),
        ⟨l, before.metrics.record (.settled (.ok r))⟩⟩
  | aborted {block before e l} :
      ((h.deposit.settle block).run before.world = (.error e, l)) →
      Made h ⟨.beginBlock block, before, .settled (.error (.deposit e)), ⟨l, before.metrics⟩⟩
  | scanned {block before calls} {report : ScanReport} :
      (report.outcomes.map ExecutionOutcome.result = before.world.groups.replies block calls) →
      Made h ⟨.endBlock block, before, .scanned report,
        ⟨{ before.world with groups := before.world.groups.afterCalls block calls },
          before.metrics.record (.scanned report)⟩⟩

theorem made_visit (h : Hooks) (n : Node Ledger) (step : HookStep) : Made h (step.visit h n) := by
  obtain ⟨change, call⟩ := step
  let before : Node Ledger := ⟨change n.world, n.metrics⟩
  -- a call acts on the world as the change of its step has left it
  cases call with
  | checkTx host context tx simulate => exact .checked (Prod.ext rfl rfl)
  | beginBlock block =>
    have hrun := h.run_beginBlock block before
    show Made h ⟨.beginBlock block, before, .settled ((h.beginBlock block).run before).1,
      ((h.beginBlock block).run before).2⟩
    rcases hsettle : (h.deposit.settle block).run (change n.world) with ⟨e | r, l⟩
    · rw [hsettle] at hrun
      rw [hrun]
      exact .aborted hsettle
    · rw [hsettle] at hrun
      rw [hrun]
      exact .settled hsettle
  | endBlock block =>
    obtain ⟨report, calls, hrun, hreplies⟩ := h.scanner.exists_run block (change n.world)
    show Made h ⟨.endBlock block, before, .scanned ((h.scanner.run block).run (change n.world)).1,
      ⟨((h.scanner.run block).run (change n.world)).2,
        n.metrics.recordScan ((h.scanner.run block).run (change n.world)).1⟩⟩
    rw [hrun]
    exact .scanned hreplies

theorem made_of_mem_visits {h : Hooks} {n : Node Ledger} {steps : List HookStep} {v : Visit}
    (hv : v ∈ visits h n steps) : Made h v := by
  induction steps generalizing n with
  | nil => cases hv
  | cons step steps ih =>
    rcases List.mem_cons.1 hv with rfl | hv
    · exact made_visit h n step
    · exact ih hv

theorem length_visits (h : Hooks) (n : Node Ledger) (steps : List HookStep) :
    (visits h n steps).length = steps.length := by
  induction steps generalizing n with
  | nil => rfl
  | cons step steps ih => exact congrArg (· + 1) (ih _)

/-- One call counts its answer. -/
theorem Made.metrics {h : Hooks} {v : Visit} (hmade : Made h v) :
    v.after.metrics = v.before.metrics.record v.answer := by
  cases hmade with
  | checked | settled | aborted | scanned => rfl

/-- A run counts its answers. -/
theorem metrics_nodeAfter (h : Hooks) (n : Node Ledger) (steps : List HookStep) :
    (nodeAfter h n steps).metrics
      = ((visits h n steps).map Visit.answer).foldl HookMetrics.record n.metrics := by
  induction steps generalizing n with
  | nil => rfl
  | cons step steps ih =>
    show (nodeAfter h (step.visit h n).after steps).metrics = _
    rw [ih, (made_visit h n step).metrics]
    rfl

/-! ### What happened in a call -/

namespace Visit

/-- By how much the balance of an account has risen. -/
def rise (v : Visit) (a : Address) : ℤ :=
  (v.after.world.bank.balanceOf a).toNat - (v.before.world.bank.balanceOf a).toNat

/-- The executions that the book has recorded at the end of a block. -/
def recorded (v : Visit) : List ExecRequest :=
  match v.call with
  | .endBlock _ => v.after.world.groups.execCalls.drop v.before.world.groups.execCalls.length
  | .checkTx _ _ _ _ | .beginBlock _ => []

/-- What the book has answered to them. -/
def replies (v : Visit) : List (Except GroupError ExecutorResult) :=
  match v.call with
  | .endBlock block => v.before.world.groups.replies block v.recorded
  | .checkTx _ _ _ _ | .beginBlock _ => []

/-- An answer to an execution that succeeded. -/
def isSuccess : Except GroupError ExecutorResult → Bool
  | .ok .success => true
  | .ok _ | .error _ => false

end Visit

namespace Made

variable {h : Hooks} {v : Visit}

/-- The executions that a scan has asked for are those the book has recorded. -/
theorem recorded_scanned {block : BlockContext} {before : Node Ledger} {report : ScanReport}
    {m : HookMetrics} (calls : List ExecRequest) :
    Visit.recorded ⟨.endBlock block, before, .scanned report,
      ⟨{ before.world with groups := before.world.groups.afterCalls block calls }, m⟩⟩
      = calls := by
  show (before.world.groups.afterCalls block calls).execCalls.drop
    before.world.groups.execCalls.length = calls
  rw [MemGroups.execCalls_afterCalls]
  exact List.drop_left

theorem length_recorded (hmade : Made h v) : v.recorded.length = v.answer.attempted := by
  cases hmade with
  | checked | settled | aborted => rfl
  | @scanned block before calls report hreplies =>
    have hlength := congrArg List.length hreplies
    rw [List.length_map, MemGroups.length_replies] at hlength
    rw [recorded_scanned]
    exact hlength.symm

theorem countP_replies (hmade : Made h v) :
    v.replies.countP Visit.isSuccess = v.answer.succeeded := by
  cases hmade with
  | checked | settled | aborted => rfl
  | @scanned block before calls report hreplies =>
    show (before.world.groups.replies block (Visit.recorded _)).countP _ = report.succeeded
    rw [recorded_scanned, ← hreplies, List.countP_map, ScanReport.succeeded,
      ← List.countP_eq_length_filter]
    rfl

/-- A scan changes the book as the executions in it do, and nothing else. -/
theorem world_endBlock (hmade : Made h v) {block : BlockContext}
    (hcall : v.call = .endBlock block) :
    v.after.world = { v.before.world with
      groups := v.before.world.groups.afterCalls block v.recorded } := by
  cases hmade with
  | checked | settled | aborted => cases hcall
  | scanned =>
    cases hcall
    rw [recorded_scanned]

/-- A check either admits or rejects, and nothing else does. -/
theorem isCheck_eq (hmade : Made h v) :
    (if v.call.isCheck then 1 else 0) = (if v.answer.isAdmitted then 1 else 0)
      + if v.answer.rejectedCode?.isSome then 1 else 0 := by
  cases hmade with
  | @checked _ _ _ _ _ result => rcases result with e | c <;> rfl
  | settled | aborted | scanned => rfl

/-- A check leaves alone what the stages of the host do. -/
theorem forward_check (hmade : Made h v) {γ : Type} {obs : Ledger → γ} {host : HostStages Ledger}
    {context : TxContext} {tx : Tx} {simulate : Bool}
    (hcall : v.call = .checkTx host context tx simulate) (hhost : host.Forward obs) :
    obs v.after.world = obs v.before.world := by
  cases hmade with
  | @checked host context tx simulate before result l hrun =>
    cases hcall
    have hkeeps := Hooks.keeps_handle hhost context tx simulate before.world
    rwa [hrun] at hkeeps
  | settled | aborted | scanned => cases hcall

theorem report?_eq_none (hmade : Made h v) (hcall : v.call.isCheck = true) :
    v.answer.report? = none := by
  cases hmade with
  | checked => rfl
  | settled | aborted | scanned => cases hcall

/-- Unless it is aborted, a block raises two balances by what it reports. -/
theorem rise_eq (hmade : Made h v) (hok : ∀ e, v.answer ≠ .settled (.error e))
    (hcall : v.call.isCheck = false)
    (hpools : [h.deposit.pools.yield.address, h.deposit.pools.deposit.address,
      h.deposit.pools.community.address].Nodup) :
    v.rise h.deposit.pools.deposit.address = (v.answer.report?.elim 0 (·.transferred.toNat) : ℕ) ∧
      v.rise h.deposit.pools.community.address = (v.answer.report?.elim 0 (·.swept.toNat) : ℕ) := by
  cases hmade with
  | checked => cases hcall
  | aborted => exact absurd rfl (hok _)
  | scanned => exact ⟨Int.sub_self _, Int.sub_self _⟩
  | @settled block before r l hsettle =>
    have hmoved := Deposit.settle_moved hpools hsettle
    constructor
    · show ((l.bank.balanceOf _).toNat : ℤ) - (before.world.bank.balanceOf _).toNat
        = (r.transferred.toNat : ℤ)
      rw [hmoved.deposit]
      omega
    · show ((l.bank.balanceOf _).toNat : ℤ) - (before.world.bank.balanceOf _).toNat
        = (r.swept.toNat : ℤ)
      rw [hmoved.community]
      omega

/-- Only a settlement that succeeds tells the metrics of dust. -/
theorem gauge (hmade : Made h v) {r : SettlementReport} (hanswer : v.answer = .settled (.ok r)) :
    v.after.metrics.dustNanoUnits = HookMetrics.dustGauge r.dust ∧
      v.after.world.dust = .ok r.dust := by
  cases hmade with
  | checked | aborted | scanned => cases hanswer
  | settled hsettle =>
    cases hanswer
    obtain ⟨-, -, -, -, -, -, -, -, -, hdust⟩ := Deposit.settle_ok_inv hsettle
    exact ⟨rfl, hdust⟩

end Made

theorem toInt_dustGauge (d : Dec) :
    (HookMetrics.dustGauge d).toInt = min ((d.raw / 10 ^ 9 : ℕ) : ℤ) (2 ^ 63 - 1) := by
  have hlow : -2 ^ 63 ≤ min ((d.raw / 10 ^ 9 : ℕ) : ℤ) maxSigned := by
    rw [maxSigned]
    omega
  have hhigh : min ((d.raw / 10 ^ 9 : ℕ) : ℤ) maxSigned < 2 ^ 63 :=
    Int.lt_of_le_of_lt (Int.min_le_right _ _) (by decide)
  exact Int64.toInt_ofInt_of_le hlow hhigh

/-! ### The metrics of a run -/

/-- The metrics `m` tell what has happened in the calls `vs`.  A counter tells
it modulo 2⁶⁴. -/
structure Reconciled (pools : Pools) (vs : List Visit) (m : HookMetrics) : Prop where
  /-- Every check is counted once: as admitted, or as rejected under its code. -/
  checks : m.txAdmitted.toNat + m.txRejected.total.toNat = vs.countP (·.call.isCheck)
  admitted : m.txAdmitted.toNat = vs.countP (·.answer.isAdmitted)
  rejected : ∀ code, (m.txRejected.get code).toNat
    = vs.countP (·.answer.rejectedCode? == some code)
  /-- What a check does to the ledger is done by the stages of its host. -/
  forward : ∀ v ∈ vs, ∀ host context tx simulate, v.call = .checkTx host context tx simulate →
    ∀ {γ : Type} (obs : Ledger → γ), host.Forward obs → obs v.after.world = obs v.before.world
  /-- The yield is what the settlements have reported. -/
  transferred : m.yieldTransferred
    = .ofNat ((reportsIn (vs.map Visit.answer)).map (·.transferred.toNat)).sum
  swept : m.yieldPoolSwept
    = .ofNat ((reportsIn (vs.map Visit.answer)).map (·.swept.toNat)).sum
  deferred : m.yieldDeferredBlocks
    = .ofNat ((reportsIn (vs.map Visit.answer)).countP (·.isDeferred))
  /-- The yield is what two of three pools have received in the blocks, if none
  of these was aborted. -/
  received : [pools.yield.address, pools.deposit.address, pools.community.address].Nodup →
    (∀ v ∈ vs, ∀ e, v.answer ≠ .settled (.error e)) →
    let blocks := vs.filter (!·.call.isCheck)
    (m.yieldTransferred.toNat : ℤ)
        = (blocks.map (·.rise pools.deposit.address)).sum % UInt64.size ∧
      (m.yieldPoolSwept.toNat : ℤ)
        = (blocks.map (·.rise pools.community.address)).sum % UInt64.size
  /-- A block changes no metric if it is aborted. -/
  aborted : ∀ v ∈ vs, ∀ e, v.answer = .settled (.error e) → v.after.metrics = v.before.metrics
  /-- After any other block the gauge tells billionths of the dust that is
  stored. -/
  gauge : ∀ v ∈ vs, ∀ r, v.answer = .settled (.ok r) → v.after.world.dust = .ok r.dust ∧
    v.after.metrics.dustNanoUnits.toInt = min ((r.dust.raw / 10 ^ 9 : ℕ) : ℤ) (2 ^ 63 - 1)
  /-- The executions are those that the book has recorded, and those that it has
  answered with success have succeeded. -/
  executions : m.proposalsExecuted + m.proposalsFailed
    = .ofNat (vs.map (·.recorded.length)).sum
  successes : m.proposalsExecuted = .ofNat (vs.map (·.replies.countP Visit.isSuccess)).sum
  replayed : ∀ v ∈ vs, ∀ block, v.call = .endBlock block → v.after.world
    = { v.before.world with groups := v.before.world.groups.afterCalls block v.recorded }

/-- A sum over some calls is the sum over all if the other calls add nothing. -/
theorem sum_map_filter {vs : List Visit} {p : Visit → Bool} {f : Visit → ℤ} {g : Visit → ℕ}
    (hkept : ∀ v ∈ vs, p v = true → f v = g v) (hdropped : ∀ v ∈ vs, p v = false → g v = 0) :
    ((vs.filter p).map f).sum = ((vs.map g).sum : ℕ) := by
  induction vs with
  | nil => rfl
  | cons v vs ih =>
    obtain ⟨hfirst, hkept⟩ := List.forall_mem_cons.1 hkept
    obtain ⟨hfirst', hdropped⟩ := List.forall_mem_cons.1 hdropped
    have hrest := ih hkept hdropped
    rw [List.map_cons, List.sum_cons, Nat.cast_add, ← hrest]
    cases hp : p v with
    | true => rw [List.filter_cons_of_pos hp, List.map_cons, List.sum_cons, hfirst hp]
    | false =>
      rw [List.filter_cons_of_neg (by rw [hp]; exact Bool.false_ne_true), hfirst' hp]
      exact (Int.zero_add _).symm

section

variable {h : Hooks} {vs : List Visit}

theorem countP_isCheck (hmade : ∀ v ∈ vs, Made h v) :
    vs.countP (·.call.isCheck) = (vs.map Visit.answer).countP HookAnswer.isAdmitted
      + (vs.map Visit.answer).countP (·.rejectedCode?.isSome) := by
  simp only [countP_eq_sum, List.map_map, ← List.sum_map_add]
  exact congrArg List.sum (List.map_congr_left fun v hv => (hmade v hv).isCheck_eq)

/-- The balance of a pool has risen by what is reported of it. -/
theorem sum_rise (hmade : ∀ v ∈ vs, Made h v) {a : Address} {share : SettlementReport → ℕ}
    (hrise : ∀ v ∈ vs, v.call.isCheck = false →
      v.rise a = (v.answer.report?.elim 0 share : ℕ)) :
    ((vs.filter (!·.call.isCheck)).map (·.rise a)).sum
      = (((reportsIn (vs.map Visit.answer)).map share).sum : ℕ) := by
  rw [sum_map_reportsIn, List.map_map]
  apply sum_map_filter
  · intro v hv hblock
    exact hrise v hv (by simpa using hblock)
  · intro v hv hcheck
    show v.answer.report?.elim 0 share = 0
    rw [(hmade v hv).report?_eq_none (by simpa using hcheck)]
    rfl

end

/-- A word counts events modulo its size. -/
theorem toNat_zero_add_ofNat_mod (n : ℕ) :
    ((0 + UInt64.ofNat n).toNat : ℤ) = (n : ℤ) % UInt64.size := by
  rw [UInt64.zero_add, UInt64.toNat_ofNat']
  exact Int.natCast_emod _ _

/-- **The metrics agree with the books.**  They do after fewer than 2⁶⁴ calls
of the hooks, in whatever order these are made, whatever they answer and
whatever a host does to the ledger between them. -/
theorem metrics_reconcile (h : Hooks) (l : Ledger) (steps : List HookStep)
    (hlength : steps.length < UInt64.size) :
    Reconciled h.deposit.pools (visits h ⟨l, .zero⟩ steps)
      (nodeAfter h ⟨l, .zero⟩ steps).metrics := by
  have hmetrics := metrics_nodeAfter h ⟨l, .zero⟩ steps
  have hmade : ∀ v ∈ visits h ⟨l, .zero⟩ steps, Made h v := fun _ => made_of_mem_visits
  have hcount := length_visits h ⟨l, .zero⟩ steps
  -- from here on all that counts is what each of the calls can do
  generalize visits h ⟨l, .zero⟩ steps = vs at hmetrics hmade hcount ⊢
  rw [hmetrics]
  have hfits : (vs.map Visit.answer).length < UInt64.size := by
    rwa [List.length_map, hcount]
  have hadmitted := HookMetrics.toNat_txAdmitted_foldl_zero _ hfits
  obtain ⟨hrejected, hcodes⟩ := HookMetrics.rejections_foldl_zero _ hfits
  have hattempted : (vs.map Visit.answer).map HookAnswer.attempted
      = vs.map (·.recorded.length) := by
    rw [List.map_map]
    exact List.map_congr_left fun v hv => (hmade v hv).length_recorded.symm
  have hsucceeded : (vs.map Visit.answer).map HookAnswer.succeeded
      = vs.map (·.replies.countP Visit.isSuccess) := by
    rw [List.map_map]
    exact List.map_congr_left fun v hv => (hmade v hv).countP_replies.symm
  have htransferred := HookMetrics.yieldTransferred_foldl .zero (vs.map Visit.answer)
  have hswept := HookMetrics.yieldPoolSwept_foldl .zero (vs.map Visit.answer)
  exact {
    checks := by rw [hadmitted, hrejected, countP_isCheck hmade]
    admitted := by rw [hadmitted, List.countP_map]; rfl
    rejected := fun code => by rw [hcodes, List.countP_map]; rfl
    forward := fun v hv _ _ _ _ hcall _ _ hhost => (hmade v hv).forward_check hcall hhost
    transferred := htransferred.trans (UInt64.zero_add _)
    swept := hswept.trans (UInt64.zero_add _)
    deferred := (HookMetrics.yieldDeferredBlocks_foldl .zero _).trans (UInt64.zero_add _)
    received := fun hpools hok => by
      have hrise := fun v hv hblock => (hmade v hv).rise_eq (hok v hv) hblock hpools
      constructor
      · rw [htransferred, sum_rise hmade fun v hv hblock => (hrise v hv hblock).1]
        exact toNat_zero_add_ofNat_mod _
      · rw [hswept, sum_rise hmade fun v hv hblock => (hrise v hv hblock).2]
        exact toNat_zero_add_ofNat_mod _
    aborted := fun v hv e hanswer => by
      rw [(hmade v hv).metrics, hanswer]
      rfl
    gauge := fun v hv r hanswer => by
      obtain ⟨hgauge, hdust⟩ := (hmade v hv).gauge hanswer
      exact ⟨hdust, by rw [hgauge, toInt_dustGauge]⟩
    executions := by
      rw [HookMetrics.proposalsExecuted_add_failed_foldl, hattempted]
      exact UInt64.zero_add _
    successes := by
      rw [HookMetrics.proposalsExecuted_foldl, hsucceeded]
      exact UInt64.zero_add _
    replayed := fun v hv block hcall => (hmade v hv).world_endBlock hcall }

namespace Scenario

/-! ### Two blocks -/

/-- Ten units are in the yield pool, and three proposals are due. -/
def twoBlocksStart : Ledger := { funded quarter 10 with groups := book }

/-- One transaction is admitted and one is rejected; between the blocks two
units more are given to the yield pool. -/
def twoBlocks : List HookStep := [
  ⟨id, .checkTx .permissive dueContext ⟨[.groupExec ⟨1, policyB⟩]⟩ false⟩,
  ⟨id, .beginBlock ⟨1, 1700000005⟩⟩,
  ⟨id, .checkTx .permissive dueContext joining true⟩,
  ⟨id, .endBlock ⟨1, 200⟩⟩,
  ⟨fun l => { l with bank := l.bank.fund deposit.pools.yield.address 2 },
    .beginBlock ⟨2, 1700000010⟩⟩]

/-- What is counted in the two blocks. -/
def twoBlocksMetrics : HookMetrics := (nodeAfter hooks ⟨twoBlocksStart, .zero⟩ twoBlocks).metrics

end Scenario

open Scenario in
theorem metrics_reconcile_twoBlocks :
    twoBlocks.length < UInt64.size ∧
      Reconciled hooks.deposit.pools (visits hooks ⟨twoBlocksStart, .zero⟩ twoBlocks)
        twoBlocksMetrics ∧
      twoBlocksMetrics.txAdmitted = 1 ∧ twoBlocksMetrics.txRejected.total = 1 ∧
      twoBlocksMetrics.yieldTransferred = 3 ∧ twoBlocksMetrics.yieldPoolSwept = 9 ∧
      twoBlocksMetrics.proposalsExecuted = 1 ∧ twoBlocksMetrics.proposalsFailed = 2 ∧
      twoBlocksMetrics.dustNanoUnits = 250000000 := by
  have hcounted : twoBlocksMetrics.txAdmitted = 1 ∧ twoBlocksMetrics.txRejected.total = 1 ∧
      twoBlocksMetrics.yieldTransferred = 3 ∧ twoBlocksMetrics.yieldPoolSwept = 9 ∧
      twoBlocksMetrics.proposalsExecuted = 1 ∧ twoBlocksMetrics.proposalsFailed = 2 ∧
      twoBlocksMetrics.dustNanoUnits = 250000000 := by
    decide +kernel
  exact ⟨by decide, metrics_reconcile hooks twoBlocksStart twoBlocks (by decide), hcounted⟩

end BlockHooks
