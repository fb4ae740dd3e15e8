import Southbound.Operation.Groups

/-!
# Operations on flows

Add, update and remove a flow.  A flow that hands packets to a group is sent
only when its device has the group: if the group is not known there, it is added
first, as it is configured.

A flow that is updated or removed is addressed strictly, so no other flow is
touched.
-/

namespace Southbound

/-- How it was made sure that the group of a flow is there. -/
inductive Dependency where
  /-- The flow hands packets to no group. -/
  | noDependency
  /-- The group was known to be there. -/
  | present (group : GroupId)
  | pushed (group : GroupId)
  /-- The group was to be added, and the device had it. -/
  | alreadyPresent (group : GroupId)
deriving DecidableEq, Repr, Inhabited

def Dependency.group? : Dependency → Option GroupId
  | noDependency => none
  | present g => some g
  | pushed g => some g
  | alreadyPresent g => some g

/-- What an operation on a flow has done. -/
structure FlowOutcome where
  descriptor : FlowDescriptor
  dependency : Dependency
deriving DecidableEq, Repr, Inhabited

/-- What the settings say about operations. -/
structure OperationPolicy where
  /-- How a rejection is known to say that a group exists. -/
  rule : GroupExistsRule := {}
  /-- Whether a flow is noted as stale before it is removed. -/
  staleMarking : Bool := true
deriving DecidableEq, Repr, Inhabited

/-- The failure of a look-up as the failure of the store. -/
def storageFailure : Failure → Failure
  | .storageError reason => .storageError reason
  | e => .storageError e.message

namespace Operation

/-- Make sure that a group that is not known to be there is there. -/
def resolveGroup (rule : GroupExistsRule) (d : DeviceId) (g : GroupId) :
    Operation Dependency := do
  match ← readGroup g with
  | .error e => throw (storageFailure e)
  | .ok none => throw (.dependencyUnresolved d g)
  | .ok (some group) =>
    let existed ← pushGroup rule group
    return if existed then .alreadyPresent g else .pushed g

/-- Make sure that the group of a flow is there. -/
def ensureGroup (rule : GroupExistsRule) (d : DeviceId) (f : Flow) : Operation Dependency := do
  match f.groupDependency with
  | none => return .noDependency
  | some g =>
    if ← hasGroup g then return .present g
    else resolveGroup rule d g

/-- Send changes of flows and wait for them.  A single change without a barrier
is no batch. -/
def sendFlowMods (mods : List FlowMod) (barrierAfter : Bool) : Operation Unit := do
  let promises ← sendAll (mods.map Message.flowMod)
  match promises, barrierAfter with
  | [p], false =>
    let _ ← reply p
  | ps, _ => composeWithBarrier ps barrierAfter

def addFlow (policy : OperationPolicy) (path : FlowPath) (f : Flow) : Operation FlowOutcome := do
  let dependency ← ensureGroup policy.rule path.device f
  sendFlowMods [.add f] f.barrier
  recordFlow f path.descriptor
  return ⟨path.descriptor, dependency⟩

/-- Put one flow in the place of another. -/
def updateFlow (policy : OperationPolicy) (path : FlowPath) (old updated : Flow) :
    Operation FlowOutcome := do
  let old := old.toStrict
  let updated := updated.toStrict
  let dependency ← ensureGroup policy.rule path.device updated
  sendFlowMods (FlowMod.updatePlan old updated) updated.barrier
  forgetFlow old
  recordFlow updated path.descriptor
  return ⟨path.descriptor, dependency⟩

/-- Remove a flow.  It is noted as stale before, and removed also if that
fails. -/
def removeFlow (policy : OperationPolicy) (path : FlowPath) (f : Flow) :
    Operation FlowOutcome := do
  let f := f.toStrict
  if policy.staleMarking then
    let _ ← noteStale ⟨path, f⟩
  sendFlowMods [.delete f] f.barrier
  forgetFlow f
  return ⟨path.descriptor, .noDependency⟩

end Operation

end Southbound
