import Southbound.Config.Basic
import Southbound.Connection.Wire
import Southbound.Transaction.Registry

/-!
# Connections

A `Connection` is the way to one device and back.

A message that is sent is registered under its transaction id and waits in a
queue.  The writer takes the messages from the queue in their order and puts
them on the wire as frames.  It passes over a message whose request was settled
meanwhile.  If the wire has no room, the writer holds the frame until there is.

A frame from the device settles the request under its transaction id.  The
sweeper settles the requests that have waited long enough.

A connection ends in one of three ways: it is disconnected, its wire is closed,
or nobody holds it any more.  The first two settle all requests at once.  The
third leaves them to the sweeper.
-/

namespace Southbound

/-! ## Frames -/

/-- How messages are written as frames and read back. -/
structure Codec where
  write : Envelope → Outcome Frame
  read : Frame → Option Envelope

def Codec.json : Codec where
  write e := .ok e.toFrame
  read := Envelope.ofFrame?

/-- Messages as documents, but for those under some transaction ids, which
cannot be written. -/
def Codec.refusing (xids : List Xid) (reason : String) : Codec where
  write e := if xids.contains e.xid then .error (.encodeFailed reason) else .ok e.toFrame
  read := Envelope.ofFrame?

instance : Inhabited Codec := ⟨.json⟩

/-! ## State -/

/-- What the writer of a connection is at. -/
inductive Writer where
  | idle
  /-- It waits for room on the wire. -/
  | holding (frame : Frame)
  | stopped
deriving DecidableEq, Repr, Inhabited

/-- What the sweeper of a connection is at. -/
inductive Sweeper where
  /-- It sweeps as long as the connection is not disconnected. -/
  | running
  /-- It sweeps as long as there are requests, since nobody holds the
  connection. -/
  | orphaned
  | stopped
deriving DecidableEq, Repr, Inhabited

/-- The way to a device and back. -/
structure Connection where
  registry : TransactionRegistry
  codec : Codec := .json
  deadlines : Deadlines := {}
  /-- How many messages may wait to be written. -/
  capacity : Nat
  /-- The messages to be written, in order. -/
  outbound : List Envelope := []
  /-- Whether messages are accepted. -/
  connected : Bool := true
  /-- Whether writer and sweeper were told to end. -/
  closing : Bool := false
  writer : Writer := .idle
  sweeper : Sweeper := .running
  wire : Wire := {}
  /-- When the connection was opened. -/
  opened : Instant := 0
  /-- Whether whoever opened the connection still holds it. -/
  owned : Bool := true
deriving Inhabited

namespace Connection

/-- The most messages or frames that a queue can be made for. -/
def maxCapacity : Nat := Nat.pow 2 61 - 1

/-- Whether a queue for so many can be made. -/
def isCapacity (n : Nat) : Bool := 0 < n && n ≤ maxCapacity

/-- A new connection to a device.  There is none if its queue or its wire cannot
be made. -/
def open? (device : DeviceId) (codec : Codec) (wireCapacity : Nat) (config : Config)
    (now : Instant) : Option Connection :=
  if isCapacity config.device.capacity.toNat && isCapacity wireCapacity then
    some {
      registry := { device }
      codec
      deadlines := config.deadlines
      capacity := config.device.capacity.toNat
      wire := { capacity := wireCapacity }
      opened := now }
  else none

def device (c : Connection) : DeviceId := c.registry.device

/-- The failure of a request of a connection that has ended. -/
def lost (c : Connection) : Failure := .connectionLost c.device

/-- The failure of a request for which there is no room. -/
def queueFull : Failure := .channelError "Outbound queue full"

/-! ## Sending -/

/-- When a message that is sent now has waited long enough. -/
def deadline (c : Connection) (now : Instant) : Message → Instant
  | .barrierRequest => now + c.deadlines.barrier.toNat
  | _ => now + c.deadlines.request.toNat

/-- A transaction id that no request has. -/
def allocate (c : Connection) : Xid × Connection :=
  let (x, registry) := c.registry.allocate
  (x, { c with registry })

/-- Why a message cannot be queued, if it cannot. -/
def refusal? (c : Connection) : Option Failure :=
  if c.writer = .stopped then some c.lost
  else if c.capacity ≤ c.outbound.length then some queueFull
  else none

/-- Send a message under a transaction id.  A message that cannot be queued is
settled at once. -/
def send (c : Connection) (now : Instant) (x : Xid) (m : Message) : Reply × Connection :=
  if c.connected then
    match c.registry.register x (some (c.deadline now m)) with
    | (.error cause, _) => (.failed x cause, c)
    | (.ok slot, registry) =>
      match c.refusal? with
      | some cause => (.awaited x slot, { c with registry := (registry.fail x cause).2 })
      | none => (.awaited x slot, { c with registry, outbound := c.outbound ++ [⟨x, m⟩] })
  else (.failed x c.lost, c)

/-! ## Receiving -/

/-- The result that a message from the device gives its request. -/
def replyOf : Message → Outcome Message
  | .error rejection => .error (.deviceRejected rejection)
  | m => .ok m

/-- Take a frame from the device.  A frame that cannot be read, or whose
transaction id no request has, changes nothing. -/
def receive (c : Connection) (f : Frame) : Connection :=
  match c.codec.read f with
  | none => c
  | some e => { c with registry := (c.registry.settle e.xid (replyOf e.message)).2 }

/-! ## Ending -/

/-- End a connection, and settle all requests. -/
def disconnect (c : Connection) : Connection :=
  if c.connected then
    { c with connected := false, closing := true, registry := (c.registry.failAll c.lost).2 }
  else c

/-- The connection when its writer has found the wire closed. -/
def wireLost (c : Connection) : Connection :=
  { c with
    connected := false
    writer := .stopped
    outbound := []
    registry := (c.registry.failAll c.lost).2 }

/-! ## The writer -/

/-- Take one message from the queue.  The request is marked as dispatched before
its message is written. -/
def takeNext (c : Connection) : Connection :=
  match c.outbound with
  | [] => c
  | e :: rest =>
    match c.registry.markDispatched e.xid with
    | (false, _) => { c with outbound := rest }
    | (true, registry) =>
      match c.codec.write e with
      | .error cause => { c with outbound := rest, registry := (registry.fail e.xid cause).2 }
      | .ok frame => { c with outbound := rest, registry, writer := .holding frame }

/-- One step of the writer.  A writer that waits for messages ends as soon as it
is told to or nobody holds the connection, and its queue is dropped. -/
def writerStep (c : Connection) (held : Bool) : Connection :=
  match c.writer with
  | .stopped => c
  | .holding frame =>
    if !c.wire.isOpen then c.wireLost
    else if c.wire.hasRoom then { c with wire := c.wire.put frame, writer := .idle }
    else c
  | .idle =>
    if c.closing || !held then { c with writer := .stopped, outbound := [] }
    else c.takeNext

/-- Whether a step of the writer changes something. -/
def writerReady (c : Connection) (held : Bool) : Bool :=
  match c.writer with
  | .stopped => false
  | .holding _ => !c.wire.isOpen || c.wire.hasRoom
  | .idle => c.closing || !held || !c.outbound.isEmpty

/-! ## The sweeper -/

/-- The sweeper notices that the connection was disconnected, or that nobody
holds it. -/
def sweeperStep (c : Connection) (held : Bool) : Connection :=
  match c.sweeper with
  | .running =>
    if c.closing then { c with sweeper := .stopped }
    else if held then c
    else { c with sweeper := .orphaned }
  | _ => c

/-- Whether the sweeper has something to notice. -/
def sweeperReady (c : Connection) (held : Bool) : Bool :=
  c.sweeper = .running && (c.closing || !held)

/-- Settle the requests that have waited long enough.  A sweeper of a connection
that nobody holds ends with the last request. -/
def sweep (c : Connection) (now : Instant) : Connection :=
  match c.sweeper with
  | .stopped => c
  | .running => { c with registry := c.registry.sweep now }
  | .orphaned =>
    let registry := c.registry.sweep now
    { c with registry, sweeper := if registry.pending.isEmpty then .stopped else .orphaned }

/-- How much time lies between two sweeps. -/
def sweepInterval (c : Connection) : Nat := c.deadlines.sweep.toNat

/-- The first sweep at or after a moment. -/
def sweepFrom (c : Connection) (t : Instant) : Instant :=
  c.opened + (t - c.opened + (c.sweepInterval - 1)) / c.sweepInterval * c.sweepInterval

/-- Whether a connection sweeps at a moment. -/
def sweepsAt (c : Connection) (t : Instant) : Bool := c.opened ≤ t && c.sweepFrom t = t

def earliestDeadline? (c : Connection) : Option Instant :=
  (c.registry.pending.filterMap Pending.deadline).min?

/-- The next sweep after a moment that changes something. -/
def nextSweep? (c : Connection) (now : Instant) : Option Instant :=
  match c.sweeper with
  | .stopped => none
  | .running => c.earliestDeadline?.map fun d => c.sweepFrom (max d (now + 1))
  | .orphaned => some (c.sweepFrom (max (c.earliestDeadline?.getD 0) (now + 1)))

end Connection

end Southbound
