/-
BlockHooks/Context.lean

What a hook is told about the block and the transaction at hand.

The time of a block is the only clock there is.
-/

namespace BlockHooks

/-- Height and time of the block being processed. -/
structure BlockContext where
  height : UInt64
  /-- Seconds since 1970. -/
  time : Int64
  deriving DecidableEq, Repr, Inhabited

/-- Which pass over a transaction is running. -/
inductive ExecMode where
  /-- Admission to the pool of waiting transactions. -/
  | check
  /-- Admission once more, after a block. -/
  | recheck
  /-- Execution in a block. -/
  | deliver
  deriving DecidableEq, Repr, Inhabited

/-- What the admission of a transaction carries from stage to stage. -/
structure TxContext where
  block : BlockContext
  mode : ExecMode
  gasLimit : UInt64
  priority : Int64
  feeDeducted : UInt64
  sequenceIncremented : Bool
  deriving DecidableEq, Repr, Inhabited

namespace TxContext

/-- A context as a transaction starts with it. -/
def initial (block : BlockContext) (mode : ExecMode) : TxContext :=
  ⟨block, mode, 0, 0, 0, false⟩

/-- Tells whether this is an admission and no execution. -/
def isCheck (c : TxContext) : Bool :=
  match c.mode with
  | .check | .recheck => true
  | .deliver => false

end TxContext

end BlockHooks
