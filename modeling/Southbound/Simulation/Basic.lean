import Southbound.Pipeline.Errands
import Southbound.Simulation.Device
import Southbound.Simulation.Gathering

/-!
# Simulation

A system with scripted devices, and what is known of the order in which things
happen in it.

Whatever goes on by itself is a `Task`.  Tasks wait in a queue for their turns.
In a turn a task does what it can, but no more than an allowance of work
(`Turn`).  A task that has used up its allowance rests, and the others go first.

What a turn does is in `Simulation.work`, whose turn it is in
`Simulation.step?`, and what the clock does in `Simulation.advance`.
-/

namespace Southbound

/-- All that takes turns. -/
inductive Task where
  /-- The sweeper of a connection, which notices that the connection has ended. -/
  | sweeper (connection : ConnectionId)
  /-- The sweeper of a connection, which sweeps. -/
  | sweep (connection : ConnectionId)
  | writer (connection : ConnectionId)
  | device (connection : ConnectionId)
  | job (lane : LaneId)
  | errand (errand : ErrandId)
  /-- A lane that starts its next job. -/
  | lane (lane : LaneId)
deriving DecidableEq, Repr, Inhabited

/-- The turn of a task. -/
structure Turn where
  task : Task
  /-- How many units of work it may still do. -/
  allowance : Nat
deriving DecidableEq, Repr, Inhabited

/-- A system with its devices and the order of its tasks. -/
structure Simulation where
  system : System := {}
  devices : List ScriptedDevice := []
  /-- The tasks that wait for a turn, in order. -/
  queue : List Task := []
  current : Option Turn := none
  /-- The tasks that rest, the latest first. -/
  resting : List Task := []
  /-- How many turns were taken since resting tasks were last woken. -/
  turns : Nat := 0
  /-- How far tasks have come with the results that they wait for. -/
  gatherings : List (Task × Gathering) := []
deriving Inhabited

namespace Simulation

/-! ## Devices -/

def modifyDevice (s : Simulation) (c : ConnectionId) (f : ScriptedDevice → ScriptedDevice) :
    Simulation :=
  { s with devices := s.devices.modify c f }

/-- The device of a connection reads one frame, if there is one, and reacts. -/
def readFrame? (s : Simulation) (c : ConnectionId) : Option Simulation := do
  let connection ← s.system.connections[c]?
  let device ← s.devices[c]?
  let (frame, wire) ← connection.wire.take?
  let (answer, device) := device.react frame
  let s := { s with system := s.system.modifyConnection c fun connection => { connection with wire } }
  let s := s.modifyDevice c fun _ => device
  match answer with
  | none => return s
  | some answer => return { s with system := s.system.receive c answer }

/-- How many frames wait for the device of a connection. -/
def unread (s : Simulation) (c : ConnectionId) : Nat :=
  match s.system.connections[c]? with
  | some connection => if connection.wire.isOpen then connection.wire.unread.length else 0
  | none => 0

/-- Whether the device of a connection reads without being told to. -/
def deviceReads (s : Simulation) (c : ConnectionId) : Bool :=
  (s.devices[c]?).any (!·.manual) && (s.system.connections[c]?).any (·.wire.isOpen)

/-- The device of a connection as a task, if it is one. -/
def deviceTask (s : Simulation) (c : ConnectionId) : List Task :=
  if s.deviceReads c then [.device c] else []

/-! ## Programs of tasks -/

/-- What remains of the program that a task runs, if it runs one. -/
def program? (s : Simulation) : Task → Option (Program (Outcome Result))
  | .job l =>
    match (s.system.pipeline.lanes.get? l).bind Lane.running with
    | some ⟨_, .operate _ rest⟩ => some rest
    | _ => none
  | .errand n =>
    match s.system.errand? n with
    | some (.program _ rest) => some rest
    | _ => none
  | _ => none

/-- The results that a task waits for, if it waits for several: those of members
and a last one. -/
def gathers? (s : Simulation) (t : Task) : Option (List Promise × Option Promise) :=
  match (s.program? t).bind Program.next? with
  | some (.gather members last) => some (members, last)
  | _ => none

/-- How far a task has come with the results that it waits for, if it has looked
at them. -/
def gathering? (s : Simulation) (t : Task) : Option Gathering := s.gatherings.lookup t

/-- Note how far a task has come with the results that it waits for. -/
def setGathering (s : Simulation) (t : Task) (g : Gathering) : Simulation :=
  { s with gatherings := (t, g) :: s.gatherings.filter (·.1 ≠ t) }

/-- Note that a task waits for no results. -/
def endGathering (s : Simulation) (t : Task) : Simulation :=
  { s with gatherings := s.gatherings.filter (·.1 ≠ t) }

end Simulation

end Southbound
