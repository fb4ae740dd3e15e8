import Southbound.Flow.Basic
import Southbound.Group.Basic

/-!
# Messages

What a controller sends to a device and what the device answers.  A request and
its reply carry the same transaction id.

`FlowMod.updatePlan` lists the changes that bring a device from one flow to
another: one change in place where that is possible (`Flow.canModify`), and
otherwise the removal of the old flow before the addition of the new one.
-/

namespace Southbound

/-! ## Changes of flows -/

/-- What a device is to do with a flow. -/
inductive FlowCommand where
  | add
  | modify
  | modifyStrict
  | delete
  | deleteStrict
deriving DecidableEq, Repr, Inhabited

def FlowCommand.name : FlowCommand → String
  | .add => "add"
  | .modify => "modify"
  | .modifyStrict => "modify_strict"
  | .delete => "delete"
  | .deleteStrict => "delete_strict"

/-- Whether a command is about the flow with the same match and priority
only. -/
def FlowCommand.isStrict : FlowCommand → Bool
  | .modifyStrict => true
  | .deleteStrict => true
  | _ => false

/-- The number that stands for no buffered packet, any port or any group. -/
def anyNumber : UInt32 := 0xffffffff

/-- The change of a flow, as a device is asked for it. -/
structure FlowMod where
  command : FlowCommand
  flow : Flow
  bufferId : UInt32 := anyNumber
  /-- A removal is of flows that output to this port. -/
  outPort : UInt32
  /-- A removal is of flows that hand packets to this group. -/
  outGroup : UInt32
deriving DecidableEq, Repr, Inhabited

/-- A change with the restrictions of its flow, and no buffered packet. -/
def FlowMod.ofFlow (command : FlowCommand) (flow : Flow) : FlowMod where
  command
  flow
  outPort := flow.outPort.getD anyNumber
  outGroup := flow.outGroup.getD anyNumber

def FlowMod.add (flow : Flow) : FlowMod := .ofFlow .add flow

/-- The change of a flow in place, strict if the flow is. -/
def FlowMod.modify (flow : Flow) : FlowMod :=
  .ofFlow (if flow.strict then .modifyStrict else .modify) flow

/-- The removal of a flow, strict if the flow is. -/
def FlowMod.delete (flow : Flow) : FlowMod :=
  .ofFlow (if flow.strict then .deleteStrict else .delete) flow

/-- The changes that bring a device from one flow to another, in order. -/
def FlowMod.updatePlan (old updated : Flow) : List FlowMod :=
  if old.canModify updated then [.modify updated] else [.delete old, .add updated]

/-! ## Changes of groups -/

/-- What a device is to do with a group. -/
inductive GroupCommand where
  | add
  | modify
  | delete
deriving DecidableEq, Repr, Inhabited

def GroupCommand.name : GroupCommand → String
  | .add => "add"
  | .modify => "modify"
  | .delete => "delete"

/-- The change of a group, as a device is asked for it. -/
structure GroupMod where
  command : GroupCommand
  group : Group
deriving DecidableEq, Repr, Inhabited

/-! ## Rejections -/

/-- Why a device did not do what was asked. -/
structure Rejection where
  /-- The kind of request it is about. -/
  errType : UInt16
  /-- The reason, by its number in that kind. -/
  code : UInt16
  text : String := ""
deriving DecidableEq, Repr, Inhabited

/-- The kind of rejection of a change of a group. -/
def Rejection.groupModFailed : UInt16 := 6

/-- Whether a rejection says in its numbers that a group exists already. -/
def Rejection.isGroupExists (r : Rejection) : Bool :=
  r.errType = Rejection.groupModFailed ∧ r.code = 0

/-- A rejection shows its numbers, and its words if it has any. -/
def Rejection.display (r : Rejection) : String :=
  "type=" ++ toString r.errType.toNat ++ " code=" ++ toString r.code.toNat ++
    (if r.text.isEmpty then "" else " (" ++ r.text ++ ")")

/-! ## Messages -/

/-- What is sent to a device and what it answers. -/
inductive Message where
  | flowMod (mod : FlowMod)
  | groupMod (mod : GroupMod)
  /-- Answer when all earlier requests are done. -/
  | barrierRequest
  | ack
  /-- All requests before the barrier are done. -/
  | barrierReply
  | error (rejection : Rejection)
deriving DecidableEq, Repr, Inhabited

/-- The name of the kind of a message. -/
def Message.kind : Message → String
  | .flowMod _ => "flow_mod"
  | .groupMod _ => "group_mod"
  | .barrierRequest => "barrier_request"
  | .ack => "ack"
  | .barrierReply => "barrier_reply"
  | .error _ => "error"

/-- A message under a transaction id. -/
structure Envelope where
  xid : Xid
  message : Message
deriving DecidableEq, Repr, Inhabited

end Southbound
