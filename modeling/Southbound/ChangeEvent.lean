import Southbound.Group.Json

/-!
# Changes of the configuration

A `ChangeEvent` says that a flow or a group of a device was configured
differently.  Each is about one device.
-/

namespace Southbound

open Json

/-- What has changed in the configuration. -/
inductive ChangeEvent where
  | flowAdded (path : FlowPath) (flow : Flow)
  | flowUpdated (path : FlowPath) (old updated : Flow)
  | flowRemoved (path : FlowPath) (flow : Flow)
  | groupAdded (device : DeviceId) (group : Group)
  | groupUpdated (device : DeviceId) (old updated : Group)
  | groupRemoved (device : DeviceId) (group : Group)
deriving DecidableEq, Repr

/-- The device that a change is about. -/
def ChangeEvent.device : ChangeEvent → DeviceId
  | .flowAdded path _ => path.device
  | .flowUpdated path _ _ => path.device
  | .flowRemoved path _ => path.device
  | .groupAdded device _ => device
  | .groupUpdated device _ _ => device
  | .groupRemoved device _ => device

/-- The name of the kind of a change. -/
def ChangeEvent.kind : ChangeEvent → String
  | .flowAdded .. => "flow_added"
  | .flowUpdated .. => "flow_updated"
  | .flowRemoved .. => "flow_removed"
  | .groupAdded .. => "group_added"
  | .groupUpdated .. => "group_updated"
  | .groupRemoved .. => "group_removed"

/-- The members of a change besides its kind. -/
def ChangeEvent.members : ChangeEvent → List (String × Json)
  | .flowAdded path flow => member "path" path ++ member "flow" flow
  | .flowUpdated path old updated =>
    member "path" path ++ member "original" old ++ member "updated" updated
  | .flowRemoved path flow => member "path" path ++ member "flow" flow
  | .groupAdded device group => member "device" device ++ member "group" group
  | .groupUpdated device old updated =>
    member "device" device ++ member "original" old ++ member "updated" updated
  | .groupRemoved device group => member "device" device ++ member "group" group

instance : Encode ChangeEvent where
  encode e := .object (("event", .text e.kind) :: e.members)

instance : Decode ChangeEvent where
  decode := decodeTagged "event"
    [("flow_added", twoFieldVariant "path" "flow" ChangeEvent.flowAdded),
      ("flow_updated", threeFieldVariant "path" "original" "updated" ChangeEvent.flowUpdated),
      ("flow_removed", twoFieldVariant "path" "flow" ChangeEvent.flowRemoved),
      ("group_added", twoFieldVariant "device" "group" ChangeEvent.groupAdded),
      ("group_updated",
        threeFieldVariant "device" "original" "updated" ChangeEvent.groupUpdated),
      ("group_removed", twoFieldVariant "device" "group" ChangeEvent.groupRemoved)]

end Southbound
