import Southbound.ChangeEvent
import Southbound.Operation.Flows

/-!
# Requests for operations

What can be asked of a device that is attached, and the work that it makes.
Before anything is done, a flow has to be in the table that its path names.

A change of the configuration asks for one operation.
-/

namespace Southbound

/-- What an operation or an errand gives back when it succeeds. -/
inductive Result where
  | done
  | flow (outcome : FlowOutcome)
  | descriptor (descriptor : FlowDescriptor)
  /-- Whether a device was attached. -/
  | detached (was : Bool)
  | message (message : Message)
deriving DecidableEq, Repr, Inhabited

/-- What the pipeline can be asked to do on a device. -/
inductive Request where
  | addFlow (path : FlowPath) (flow : Flow)
  | updateFlow (path : FlowPath) (old updated : Flow)
  | removeFlow (path : FlowPath) (flow : Flow)
  | addGroup (device : DeviceId) (group : Group)
  | updateGroup (device : DeviceId) (group : Group)
  | removeGroup (device : DeviceId) (group : Group)
  | addGroups (device : DeviceId) (groups : List Group) (barrierAfter : Bool)
  | removeGroups (device : DeviceId) (groups : List Group) (barrierAfter : Bool)
  | barrier (device : DeviceId)
  /-- A flow was seen on the device, and its descriptor is asked for. -/
  | observe (device : DeviceId) (flow : Flow)
deriving DecidableEq, Repr

namespace Request

/-- The device of which it is asked. -/
def device : Request → DeviceId
  | addFlow path _ => path.device
  | updateFlow path _ _ => path.device
  | removeFlow path _ => path.device
  | addGroup d _ => d
  | updateGroup d _ => d
  | removeGroup d _ => d
  | addGroups d _ _ => d
  | removeGroups d _ _ => d
  | barrier d => d
  | observe d _ => d

/-- Check the table of the flow that is to be installed or removed. -/
def check : Request → Outcome Unit
  | addFlow path f => (checkTableId path f).mapError RequestFault.toFailure
  | updateFlow path _ updated => (checkTableId path updated).mapError RequestFault.toFailure
  | removeFlow path f => (checkTableId path f).mapError RequestFault.toFailure
  | _ => .ok ()

end Request

/-! ## Work -/

/-- What is to be done for one device. -/
inductive Work where
  | operate (connection : ConnectionId) (rest : Program (Outcome Result))
  /-- Give the descriptor of a flow that was seen. -/
  | observe (flow : Flow)
  /-- Forget what is known of the device. -/
  | clear

instance : Inhabited Work := ⟨.clear⟩

/-- The work of an operation without a value. -/
def Work.ofUnit (c : ConnectionId) (o : Operation Unit) : Work :=
  .operate c (Functor.map (fun _ => Result.done) o).run

/-- The work of an operation on a flow. -/
def Work.ofFlow (c : ConnectionId) (o : Operation FlowOutcome) : Work :=
  .operate c (Functor.map Result.flow o).run

/-- The work that a request makes on the connection of its device. -/
def Request.work (policy : OperationPolicy) (c : ConnectionId) : Request → Work
  | .addFlow path f => .ofFlow c (.addFlow policy path f)
  | .updateFlow path old updated => .ofFlow c (.updateFlow policy path old updated)
  | .removeFlow path f => .ofFlow c (.removeFlow policy path f)
  | .addGroup _ g => .ofUnit c (.addGroup policy.rule g)
  | .updateGroup _ g => .ofUnit c (.updateGroup g)
  | .removeGroup _ g => .ofUnit c (.removeGroup g)
  | .addGroups _ gs barrierAfter => .ofUnit c (.addGroups policy.rule gs barrierAfter)
  | .removeGroups _ gs barrierAfter => .ofUnit c (.removeGroups gs barrierAfter)
  | .barrier _ => .ofUnit c .barrier
  | .observe _ f => .observe f

/-! ## Changes of the configuration -/

/-- The operation that a change of the configuration asks for. -/
def ChangeEvent.request : ChangeEvent → Request
  | .flowAdded path f => .addFlow path f
  | .flowUpdated path old updated => .updateFlow path old updated
  | .flowRemoved path f => .removeFlow path f
  | .groupAdded d g => .addGroup d g
  | .groupUpdated d _ updated => .updateGroup d updated
  | .groupRemoved d g => .removeGroup d g

end Southbound
