/-
BlockHooks/Tx.lean

Transactions: lists of messages in order.

Two kinds of message concern admission, the request to execute a proposal
and the request to join the validators.  Any other message is known by the
address of its type alone.
-/
import BlockHooks.Group.Proposal

namespace BlockHooks

/-- The request to join the validators under the operator's address. -/
structure CreateValidator where
  operator : Address
  moniker : String
  deriving DecidableEq, Repr

/-- A message, as far as admission looks at it. -/
inductive Msg where
  | groupExec (request : ExecRequest)
  | createValidator (request : CreateValidator)
  | other (typeUrl : String)
  deriving DecidableEq, Repr

/-- The address of a message's type. -/
def Msg.typeUrl : Msg → String
  | .groupExec _ => "/cosmos.group.v1.MsgExec"
  | .createValidator _ => "/cosmos.staking.v1beta1.MsgCreateValidator"
  | .other url => url

/-- A transaction, as far as admission looks at it. -/
structure Tx where
  msgs : List Msg
  deriving DecidableEq, Repr

end BlockHooks
