import Southbound.Flow.Key
import Southbound.Table

/-!
# Flows that are known

The descriptors of the flows of each device, by their keys (`Flow.key`).

A flow that is seen on a device without a configured id is given one:
`#UF$TABLE*t*n` names the n-th such flow of the device, seen in table `t`.  The
count of a device is a word and goes on until the device is cleared, so no two of
these ids are the same before the count has gone round.
-/

namespace Southbound

/-- The id of a flow without a configured one. -/
def alienFlowId (table : TableId) (n : Nat) : FlowId :=
  ⟨"#UF$TABLE*" ++ table.display ++ "*" ++ toString n⟩

/-- The flows that are recorded of a device. -/
structure DeviceFlows where
  byKey : Table FlowKey FlowDescriptor := {}
  /-- How many ids were given out. -/
  minted : UInt64 := 0
deriving Inhabited

/-- The flows that are recorded of all devices. -/
structure FlowRegistry where
  policy : FlowKeyPolicy := {}
  devices : Table DeviceId DeviceFlows := {}
deriving Inhabited

namespace FlowRegistry

def key (r : FlowRegistry) (f : Flow) : FlowKey := f.key r.policy

def device (r : FlowRegistry) (d : DeviceId) : DeviceFlows := (r.devices.get? d).getD {}

/-- How many flows of a device are known. -/
def count (r : FlowRegistry) (d : DeviceId) : Nat := (r.device d).byKey.size

def retrieve (r : FlowRegistry) (d : DeviceId) (f : Flow) : Option FlowDescriptor :=
  (r.device d).byKey.get? (r.key f)

/-- Record the descriptor of a flow, in place of an earlier one. -/
def store (r : FlowRegistry) (d : DeviceId) (f : Flow) (descriptor : FlowDescriptor) :
    FlowRegistry :=
  let flows := r.device d
  { r with devices := r.devices.set d { flows with byKey := flows.byKey.set (r.key f) descriptor } }

/-- Record nothing more of a flow, and give the descriptor that it had. -/
def remove (r : FlowRegistry) (d : DeviceId) (f : Flow) : Option FlowDescriptor × FlowRegistry :=
  (r.retrieve d f, { r with devices := r.devices.modify d fun flows =>
      { flows with byKey := flows.byKey.erase (r.key f) } })

/-- The descriptor of a flow that was seen on a device, with the registry in
which it is recorded.  A recorded descriptor is kept, and a flow without an id
is given one. -/
def observe (r : FlowRegistry) (d : DeviceId) (f : Flow) : FlowDescriptor × FlowRegistry :=
  match r.retrieve d f with
  | some descriptor => (descriptor, r)
  | none =>
    let flows := r.device d
    let descriptor : FlowDescriptor := ⟨f.table, f.id.getD (alienFlowId f.table flows.minted.toNat)⟩
    let minted := if f.id.isNone then flows.minted + 1 else flows.minted
    (descriptor, { r with
      devices := r.devices.set d ⟨flows.byKey.set (r.key f) descriptor, minted⟩ })

def clearDevice (r : FlowRegistry) (d : DeviceId) : FlowRegistry :=
  { r with devices := r.devices.erase d }

end FlowRegistry

end Southbound
