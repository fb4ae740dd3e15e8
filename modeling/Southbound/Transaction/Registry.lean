import Southbound.Failure

/-!
# Outstanding requests

The requests of one connection that have no reply yet, each under its
transaction id.

Registering a request opens a *slot* for its result.  Slots are numbered in the
order of registration and never used again.  A request leaves the registry when
its slot is settled: by a reply, by a failure, by its deadline or by being
withdrawn.  A transaction id is free again as soon as its request has left, so
a slot and not an id names one request for good.
-/

namespace Southbound

/-- The number of the place where the result of one request arrives. -/
abbrev Slot := Nat

/-- A moment on the clock of the library, in milliseconds from its start. -/
abbrev Instant := Nat

/-- A request that has no result yet. -/
structure Pending where
  xid : Xid
  /-- Where its result will arrive. -/
  slot : Slot
  /-- When it has waited long enough, if ever. -/
  deadline : Option Instant
  /-- Whether it was handed to the wire. -/
  dispatched : Bool := false
deriving DecidableEq, Repr, Inhabited

/-- The requests of one connection and the results of those that have one. -/
structure TransactionRegistry where
  device : DeviceId
  /-- The first transaction id to be tried next. -/
  cursor : Xid := ⟨1⟩
  /-- The requests without a result, the latest first. -/
  pending : List Pending := []
  settled : List (Slot × Outcome Message) := []
  /-- How many slots were opened. -/
  slots : Nat := 0
deriving Inhabited

namespace TransactionRegistry

/-! ## Looking -/

def find? (r : TransactionRegistry) (x : Xid) : Option Pending :=
  r.pending.find? (·.xid = x)

/-- Whether there is a request under a transaction id. -/
def isPending (r : TransactionRegistry) (x : Xid) : Bool := (r.find? x).isSome

/-- How many requests have no result. -/
def pendingCount (r : TransactionRegistry) : Nat := r.pending.length

def result? (r : TransactionRegistry) (slot : Slot) : Option (Outcome Message) :=
  r.settled.lookup slot

/-- A list of transaction ids in ascending order with one more. -/
def insertXid (x : Xid) : List Xid → List Xid
  | [] => [x]
  | y :: ys => if x.val ≤ y.val then x :: y :: ys else y :: insertXid x ys

/-- The transaction ids of the requests that have waited long enough, in
ascending order. -/
def overdue (r : TransactionRegistry) (now : Instant) : List Xid :=
  ((r.pending.filter fun p => p.deadline.any (· ≤ now)).map Pending.xid).foldr insertXid []

/-! ## Transaction ids -/

/-- The first of so many transaction ids from the cursor on that no request
has.  The cursor moves behind it.  If every one of them is taken, it is the id
at the cursor, and the cursor moves by one. -/
def allocateWithin (attempts : Nat) (r : TransactionRegistry) : Xid × TransactionRegistry :=
  go attempts r.cursor
where
  go : Nat → Xid → Xid × TransactionRegistry
    | 0, _ => (r.cursor, { r with cursor := r.cursor.next })
    | n + 1, x => if r.isPending x then go n x.next else (x, { r with cursor := x.next })

def allocate (r : TransactionRegistry) : Xid × TransactionRegistry := r.allocateWithin UInt32.size

/-! ## Requests -/

/-- Open a slot for a request under a transaction id that is free. -/
def register (r : TransactionRegistry) (x : Xid) (deadline : Option Instant) :
    Outcome Slot × TransactionRegistry :=
  if r.isPending x then (.error (.xidInUse x), r)
  else
    (.ok r.slots, { r with
      pending := ⟨x, r.slots, deadline, false⟩ :: r.pending
      slots := r.slots + 1 })

/-- Settle the request under a transaction id. -/
def settle (r : TransactionRegistry) (x : Xid) (result : Outcome Message) :
    Outcome Unit × TransactionRegistry :=
  match r.find? x with
  | none => (.error (.unknownTransaction x), r)
  | some p =>
    (.ok (), { r with
      pending := r.pending.filter (·.xid ≠ x)
      settled := (p.slot, result) :: r.settled })

/-- Settle a request with the reply of the device. -/
def resolve (r : TransactionRegistry) (x : Xid) (reply : Message) :
    Outcome Unit × TransactionRegistry := r.settle x (.ok reply)

def fail (r : TransactionRegistry) (x : Xid) (cause : Failure) :
    Outcome Unit × TransactionRegistry := r.settle x (.error cause)

/-- Settle a request that has waited long enough. -/
def expire (r : TransactionRegistry) (x : Xid) : Outcome Unit × TransactionRegistry :=
  r.fail x (.timeout x)

/-- Withdraw a request that was not handed to the wire, and say whether it
was. -/
def cancel (r : TransactionRegistry) (x : Xid) : Bool × TransactionRegistry :=
  match r.find? x with
  | none => (false, r)
  | some p => if p.dispatched then (false, r) else (true, (r.fail x .cancelled).2)

/-- Note that a request is handed to the wire, and say whether there is such a
request. -/
def markDispatched (r : TransactionRegistry) (x : Xid) : Bool × TransactionRegistry :=
  if r.isPending x then
    (true, { r with
      pending := r.pending.map fun p => if p.xid = x then { p with dispatched := true } else p })
  else (false, r)

/-- Settle every request with one failure, and say how many there were. -/
def failAll (r : TransactionRegistry) (cause : Failure) : Nat × TransactionRegistry :=
  (r.pending.length, { r with
    pending := []
    settled := r.pending.map (fun p => (p.slot, .error cause)) ++ r.settled })

/-- Settle every request that has waited long enough. -/
def sweep (r : TransactionRegistry) (now : Instant) : TransactionRegistry :=
  (r.overdue now).foldl (fun r x => (r.expire x).2) r

end TransactionRegistry

/-! ## Replies -/

/-- The result of one request, which arrives in a slot of its registry or was
known from the start. -/
inductive Reply where
  | awaited (xid : Xid) (slot : Slot)
  /-- The request failed before it had a slot. -/
  | failed (xid : Xid) (cause : Failure)
deriving Inhabited

namespace Reply

def xid : Reply → Xid
  | awaited x _ => x
  | failed x _ => x

/-- The result of the request, as far as it is known. -/
def result? (registry : TransactionRegistry) : Reply → Option (Outcome Message)
  | awaited _ slot => registry.result? slot
  | failed _ cause => some (.error cause)

/-- Withdraw the request if it was not handed to the wire, and say whether it
was withdrawn. -/
def cancel (registry : TransactionRegistry) : Reply → Bool × TransactionRegistry
  | awaited x _ => registry.cancel x
  | failed _ _ => (false, registry)

/-- The failure of a request whose slot will never have a result. -/
def orphaned (x : Xid) : Failure :=
  .channelError ("Result slot for transaction " ++ x.display ++ " dropped")

end Reply

end Southbound
