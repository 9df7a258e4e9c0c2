/-
BlockHooks/Sandbox/Stage.lean

Stages that follow a script.

A scripted stage stands for one that the host brings.  It tells the journal
where it is, may reject, may overwrite parts of the context, may stop or run
the rest several times, on fewer messages and with another flag, and may
recover from a rejection by the rest.
-/
import BlockHooks.Admission.Stage
import BlockHooks.Sandbox.Basic

namespace BlockHooks

/-- When a scripted rejection takes place. -/
inductive RejectWhen where
  | always
  | simulating
  | notSimulating
  | checking
  deriving DecidableEq, Repr

/-- Tells whether the rejection takes place for a context and a flag. -/
def RejectWhen.holds (w : RejectWhen) (context : TxContext) (simulate : Bool) : Bool :=
  match w with
  | .always => true
  | .simulating => simulate
  | .notSimulating => !simulate
  | .checking => context.isCheck

/-- What a stage is to do before, around and after the stages behind it. -/
structure StageScript where
  name : String
  /-- The values to overwrite in the context. -/
  gas : Option UInt64
  priority : Option Int64
  fee : Option UInt64
  sequence : Option Bool
  time : Option Int64
  /-- The flag that the rest gets. -/
  simulate : Option Bool
  reject : Option (RejectCode × String)
  rejectWhen : RejectWhen
  /-- Answer without running the rest. -/
  stop : Bool
  /-- How often the rest runs. -/
  runs : Nat
  /-- How many messages the rest gets at most. -/
  keepMsgs : Option Nat
  recover : Bool
  /-- The gas limit once the rest has run. -/
  postGas : Option UInt64

namespace StageScript

/-- The stage that only tells where it is. -/
def named (name : String) : StageScript :=
  ⟨name, none, none, none, none, none, none, none, .always, false, 1, none, false, none⟩

/-- The context with the script's values in it. -/
def overwrite (s : StageScript) (c : TxContext) : TxContext where
  block := { c.block with time := s.time.getD c.block.time }
  mode := c.mode
  gasLimit := s.gas.getD c.gasLimit
  priority := s.priority.getD c.priority
  feeDeducted := s.fee.getD c.feeDeducted
  sequenceIncremented := s.sequence.getD c.sequenceIncremented

/-- The transaction with the messages that the rest gets. -/
def cut (s : StageScript) (tx : Tx) : Tx :=
  match s.keepMsgs with
  | some n => ⟨tx.msgs.take n⟩
  | none => tx

/-- The error the script rejects with, if it does. -/
def rejection? (s : StageScript) (context : TxContext) (simulate : Bool) :
    Option AdmissionError :=
  match s.reject with
  | some (code, message) =>
    if s.rejectWhen.holds context simulate then some (.external code message) else none
  | none => none

/-- Runs the rest `n` times, each time on the context that came back; after
a rejection a script that recovers goes on with `before`. -/
def runRest (s : StageScript) (before : TxContext)
    (rest : TxContext → Action Sandbox AdmissionError TxContext) :
    Nat → TxContext → Action Sandbox AdmissionError TxContext
  | 0, context => pure context
  | n + 1, context => do
    match ← Action.ofState (rest context).outcome with
    | .ok context => s.runRest before rest n context
    | .error e =>
      if s.recover then do
        Sandbox.note (.stage (s.name ++ " recovered"))
        return before
      else throw e

/-- Sets the gas limit at the end, if the script says so. -/
def finish (s : StageScript) (context : TxContext) : Action Sandbox AdmissionError TxContext :=
  match s.postGas with
  | some gas => do
    Sandbox.note (.stage (s.name ++ " post"))
    return { context with gasLimit := gas }
  | none => pure context

/-- The stage that follows the script. -/
def toStage (s : StageScript) : Stage Sandbox := fun before tx simulate rest => do
  Sandbox.note (.stage (if simulate then s.name ++ " sim" else s.name))
  match s.rejection? before simulate with
  | some e => throw e
  | none =>
    let context := s.overwrite before
    if s.stop then return context
    else
      let simulate := s.simulate.getD simulate
      let context ← s.runRest before (fun c => rest c (s.cut tx) simulate) s.runs context
      s.finish context

end StageScript

end BlockHooks
