import Southbound.Config.Basic
import Southbound.Jobs.Lanes
import Southbound.Operation.Request
import Southbound.Registry.FlowRegistry
import Southbound.Registry.GroupPresence

/-!
# The pipeline

The pipeline takes requests for operations and does them on the devices that
are attached, for each device one after another.

A request is checked first, and then it becomes a job in the lane of its device
(`Pipeline.submit`).  The checks are made in a fixed order: the table of the
flow, whether requests are still accepted, and whether the device is attached.  A
request that does not pass changes nothing.
-/

namespace Southbound

/-- The number of a job, in the order in which they were queued. -/
abbrev Ticket := Nat

/-- A job in the lane of a device. -/
structure Job where
  ticket : Ticket
  work : Work

instance : Inhabited Job := ⟨⟨0, .clear⟩⟩

/-- The devices that are attached, their jobs, and what is recorded of them. -/
structure Pipeline where
  config : Config := {}
  /-- The connections of the devices that are attached. -/
  attached : Table DeviceId ConnectionId := {}
  lanes : Lanes Job := {}
  /-- The groups that devices are known to have. -/
  groups : GroupPresence := {}
  flows : FlowRegistry := {}
  /-- Whether requests are refused. -/
  shuttingDown : Bool := false
  /-- How many jobs were queued. -/
  tickets : Nat := 0
deriving Inhabited

namespace Pipeline

/-- A pipeline without devices, if its settings make sense. -/
def new (config : Config) : Outcome Pipeline :=
  match config.validate with
  | .error e => .error e
  | .ok () => .ok { config, flows := { policy := config.keys } }

def policy (p : Pipeline) : OperationPolicy where
  rule := p.config.existsRule
  staleMarking := p.config.device.staleMarking

/-- The devices that are attached, in ascending order. -/
def devices (p : Pipeline) : List DeviceId :=
  p.attached.keys.mergeSort fun a b => decide (a.text ≤ b.text)

/-- The connection of a device, if requests are accepted and it is attached. -/
def channel (p : Pipeline) (d : DeviceId) : Outcome ConnectionId :=
  if p.shuttingDown then .error .shuttingDown
  else match p.attached.get? d with
    | some c => .ok c
    | none => .error (.notConnected d)

def enqueue (p : Pipeline) (d : DeviceId) (work : Work) : Ticket × Pipeline :=
  (p.tickets, { p with lanes := p.lanes.enqueue d ⟨p.tickets, work⟩, tickets := p.tickets + 1 })

/-- Check a request and queue its job. -/
def submit (p : Pipeline) (r : Request) : Outcome Ticket × Pipeline :=
  match r.check with
  | .error e => (.error e, p)
  | .ok () =>
    match p.channel r.device with
    | .error e => (.error e, p)
    | .ok c =>
      let (ticket, p) := p.enqueue r.device (r.work p.policy c)
      (.ok ticket, p)

end Pipeline

end Southbound
