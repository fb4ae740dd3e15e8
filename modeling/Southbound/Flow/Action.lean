import Southbound.Flow.Match

/-!
# Actions and instructions

An `Action` is done to one packet.  An `Instruction` says when actions are
done: `applyActions` at once, `writeActions` when the packet leaves the last
table.  Only what is done at once can depend on a group of the device
(`Flow.groupDependency`).
-/

namespace Southbound

/-- A header field and the value it is set to. -/
inductive FieldValue where
  | metadata (value : UInt64)
  | ethSrc (value : Mac)
  | ethDst (value : Mac)
  | vlanVid (value : UInt16)
  | vlanPcp (value : UInt8)
  | ipDscp (value : UInt8)
  | ipv4Src (value : Ipv4)
  | ipv4Dst (value : Ipv4)
  | tcpSrc (value : UInt16)
  | tcpDst (value : UInt16)
  | udpSrc (value : UInt16)
  | udpDst (value : UInt16)
  | tunnelId (value : UInt64)
deriving DecidableEq, Repr, Inhabited

/-- What is done to a packet. -/
inductive Action where
  | output (port : UInt32) (maxLen : UInt16)
  | group (id : GroupId)
  | setField (field : FieldValue)
  | pushVlan (ethertype : UInt16)
  | popVlan
  | setQueue (queue : UInt32)
  | decNwTtl
  | setNwTtl (ttl : UInt8)
  | copyTtlIn
  | copyTtlOut
  | drop
deriving DecidableEq, Repr, Inhabited

/-- Output to a port, with nothing cut off a packet that goes to the
controller. -/
def Action.outputTo (port : UInt32) : Action := .output port 0xffff

/-- The group an action hands the packet to. -/
def Action.groupId? : Action → Option GroupId
  | .group id => some id
  | _ => none

/-- What a flow does with the packets it matches. -/
inductive Instruction where
  | gotoTable (table : TableId)
  | writeMetadata (metadata mask : UInt64)
  | writeActions (actions : List Action)
  | applyActions (actions : List Action)
  | clearActions
  | meter (id : UInt32)
deriving DecidableEq, Repr, Inhabited

/-- The actions an instruction does at once. -/
def Instruction.appliedActions : Instruction → List Action
  | .applyActions actions => actions
  | _ => []

end Southbound
