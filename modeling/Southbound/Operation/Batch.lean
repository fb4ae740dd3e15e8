import Southbound.Operation.Basic

/-!
# Batches

Several messages whose results count as one.  A batch is over when every message
has its result, and it has succeeded if all of them have.  A message that was
withdrawn counts as a success.

A batch can be closed by a barrier.  The device answers a barrier when all
earlier messages are done, and no other reply counts as an answer to it.

`batchOutcome` is what the results come to, apart from how they are waited for.
-/

namespace Southbound

/-! ## What results come to -/

/-- The failures among the results of the members, in their order. -/
def memberFailures (results : List Settled) : List (BatchFailure Failure) :=
  results.zipIdx.filterMap fun ((xid, result), index) =>
    match result with
    | .ok _ => none
    | .error .cancelled => none
    | .error cause => some ⟨.member index, some xid, cause⟩

def expectBarrierReply (x : Xid) : Message → Outcome Unit
  | .barrierReply => .ok ()
  | m => .error (.unexpectedReply x m.kind)

/-- The failure of the barrier with a result, if it failed. -/
def barrierFailure? : Settled → Option (BatchFailure Failure)
  | (xid, result) =>
    match result.bind (expectBarrierReply xid) with
    | .ok () => none
    | .error .cancelled => none
    | .error cause => some ⟨.barrier, some xid, .barrierFailed cause⟩

/-- What the results of the members and of the barrier, if there is one, come
to. -/
def batchOutcome (members : List Settled) (barrier : Option Settled) : Outcome Unit :=
  match memberFailures members ++ (barrier.bind barrierFailure?).toList with
  | [] => .ok ()
  | failures => .error (.batch (members.length + barrier.toList.length) failures)

/-! ## Waiting for results -/

namespace Operation

/-- Wait for the members of a batch and for its barrier, if it has one. -/
def settleBatch (members : List Promise) (barrier : Option Promise) : Operation Unit := do
  let (results, last) ← gather members barrier
  ofOutcome (batchOutcome results last)

/-- Wait for the members of a batch. -/
def compose (members : List Promise) : Operation Unit := settleBatch members none

/-- Close a batch with a barrier if it is asked for, and wait for the batch. -/
def composeWithBarrier (members : List Promise) (barrierAfter : Bool) : Operation Unit := do
  if barrierAfter then
    let barrier ← send .barrierRequest
    settleBatch members (some barrier)
  else settleBatch members none

/-- Send a barrier and wait for the answer. -/
def barrier : Operation Unit := do
  let p ← send .barrierRequest
  let m ← reply p
  ofOutcome (expectBarrierReply p.xid m)

end Operation

end Southbound
