/-!
# Identities

The names the library keys its state by.  A device is named by a text, a
transaction by a 32-bit word that is unique among the outstanding requests of
one connection, a group by a 32-bit word that is unique on its device, a table
by a byte, and a flow by a text that is unique in its table.

A flow has two addresses.  Its `FlowPath` says where it is configured, and its
`FlowDescriptor` names it among the flows of a device.
-/

namespace Southbound

/-! ## Names -/

/-- The name of a device, such as `openflow:1`. -/
structure DeviceId where
  text : String
deriving DecidableEq, Hashable, Repr, Inhabited

/-- The transaction id that pairs a request with its reply. -/
structure Xid where
  val : UInt32
deriving DecidableEq, Hashable, Repr, Inhabited

/-- The id of a group, unique on its device. -/
structure GroupId where
  val : UInt32
deriving DecidableEq, Hashable, Repr, Inhabited

/-- The number of a flow table. -/
structure TableId where
  val : UInt8
deriving DecidableEq, Hashable, Repr, Inhabited

/-- The id of a flow, unique in its table. -/
structure FlowId where
  text : String
deriving DecidableEq, Hashable, Repr, Inhabited

/-! ## Their texts -/

def DeviceId.display (d : DeviceId) : String := d.text

/-- A transaction id shows as a decimal number. -/
def Xid.display (x : Xid) : String := toString x.val.toNat

/-- A group id shows as a decimal number. -/
def GroupId.display (g : GroupId) : String := toString g.val.toNat

/-- A table id shows as a decimal number. -/
def TableId.display (t : TableId) : String := toString t.val.toNat

/-- The transaction id after this one; the last is followed by `0`. -/
def Xid.next (x : Xid) : Xid := ⟨x.val + 1⟩

/-! ## Addresses of a flow -/

/-- Where a flow is configured: its device, its table there and its id in the
table. -/
structure FlowPath where
  device : DeviceId
  table : TableId
  /-- The id of the flow in the table. -/
  flow : FlowId
deriving DecidableEq, Repr, Inhabited

def FlowPath.display (p : FlowPath) : String :=
  p.device.display ++ "/table/" ++ p.table.display ++ "/flow/" ++ p.flow.text

/-- The identity of a flow among the flows of a device. -/
structure FlowDescriptor where
  table : TableId
  flow : FlowId
deriving DecidableEq, Repr, Inhabited

def FlowPath.descriptor (p : FlowPath) : FlowDescriptor := ⟨p.table, p.flow⟩

end Southbound
