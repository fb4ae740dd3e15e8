import Southbound.Group.ExistsRule
import Southbound.Operation.Batch
import Southbound.RequestFault

/-!
# Operations on groups

Add, update and remove groups, one by one or as a batch.  What is known of the
device follows its answers: a group is recorded when the device has taken it or
says that it has it already, and forgotten when the device has removed it.

Of a batch, those members are recorded that did not fail, whatever became of
the others.
-/

namespace Southbound

/-- Whether a failure is a device's word that a member of a batch is there
already. -/
def GroupExistsRule.absorbs (rule : GroupExistsRule) (f : BatchFailure Failure) : Bool :=
  match f.step, f.error with
  | .member _, .deviceRejected r => rule.matches r
  | _, _ => false

/-- An outcome without the failures of members that are there already. -/
def GroupExistsRule.absorb (rule : GroupExistsRule) : Outcome Unit → Outcome Unit
  | .error (.batch total failures) =>
    match failures.filter (!rule.absorbs ·) with
    | [] => .ok ()
    | rest => .error (.batch total rest)
  | o => o

/-- The members of a batch that did not fail. -/
def accepted (ids : List GroupId) (result : Outcome Unit) : List GroupId :=
  let failed := match result with
    | .ok () => []
    | .error e => e.failedMembers
  ids.zipIdx.filterMap fun (id, index) => if failed.contains index then none else some id

namespace Operation

/-- Add a group and record it.  The answer says whether the device had it
already. -/
def pushGroup (rule : GroupExistsRule) (g : Group) : Operation Bool := do
  let p ← send (.groupMod ⟨.add, g⟩)
  let existed ← match ← settled p with
    | .ok _ => pure false
    | .error (.deviceRejected r) =>
      if rule.matches r then pure true else throw (.deviceRejected r)
    | .error e => throw e
  recordGroup g.id
  return existed

def addGroup (rule : GroupExistsRule) (g : Group) : Operation Unit := do
  let _ ← pushGroup rule g

def updateGroup (g : Group) : Operation Unit := do
  let p ← send (.groupMod ⟨.modify, g⟩)
  let _ ← reply p
  recordGroup g.id

def removeGroup (g : Group) : Operation Unit := do
  let p ← send (.groupMod ⟨.delete, g⟩)
  let _ ← reply p
  forgetGroup g.id

/-- Wait for a batch, whatever comes of it. -/
def batchResult (messages : List Message) (barrierAfter : Bool) : Operation (Outcome Unit) := do
  let promises ← sendAll messages
  ExceptT.lift (composeWithBarrier promises barrierAfter).run

/-- Do something for every group of a list. -/
def forGroups (f : GroupId → Operation Unit) : List GroupId → Operation Unit
  | [] => pure ()
  | g :: gs => do
    f g
    forGroups f gs

def addGroups (rule : GroupExistsRule) (gs : List Group) (barrierAfter : Bool) :
    Operation Unit := do
  ofOutcome ((checkNonEmpty "add-groups-batch" gs).mapError RequestFault.toFailure)
  let result ← batchResult (gs.map fun g => .groupMod ⟨.add, g⟩) barrierAfter
  let result := rule.absorb result
  forGroups recordGroup (accepted (gs.map Group.id) result)
  ofOutcome result

def removeGroups (gs : List Group) (barrierAfter : Bool) : Operation Unit := do
  ofOutcome ((checkNonEmpty "remove-groups-batch" gs).mapError RequestFault.toFailure)
  let result ← batchResult (gs.map fun g => .groupMod ⟨.delete, g⟩) barrierAfter
  forGroups forgetGroup (accepted (gs.map Group.id) result)
  ofOutcome result

end Operation

end Southbound
