import Southbound.Connection.Basic
import Southbound.Pipeline.Basic
import Southbound.Store

/-!
# The system

A pipeline with its connections, the store of the configuration and a clock.

Whoever asks for something has an *errand*, which ends with a result.  Most
errands wait for a job of the pipeline.

Everything that can happen in the system is one of a few steps: a lane starts a
job, a job or an errand goes on by one effect, a writer takes or writes one
message, a sweeper sweeps, or something comes from outside.  Each step is a
function of the state, and nothing here says which step is next.

A step ends where whoever takes it may have to wait: for a job, for a message, or
for the table of the devices that are attached, which whoever attaches a device
looks for after the check that requests are accepted.
-/

namespace Southbound

/-! ## State -/

/-- The number of an errand, in the order in which they were begun. -/
abbrev ErrandId := Nat

/-- What is left to do for whoever asked for something. -/
inductive Errand where
  | over (result : Outcome Result)
  /-- It waits for a job, and takes its result, or only whether it succeeded. -/
  | job (ticket : Ticket) (quiet : Bool)
  /-- Requests were accepted when a connection was to be attached, and it waits
  for the table of the devices. -/
  | attach (connection : ConnectionId)
  /-- A device is being detached, and its state will be cleared by a job. -/
  | detach (ticket : Ticket)
  /-- A device is being detached, and others are to be detached after it. -/
  | shutdown (ticket : Ticket) (rest : List DeviceId)
  /-- It waits for the result of a message. -/
  | reply (promise : Promise)
  /-- It runs a program on a connection. -/
  | program (connection : ConnectionId) (rest : Program (Outcome Result))

instance : Inhabited Errand := ⟨.over (.ok .done)⟩

/-- Whether a job holds a connection. -/
def Job.holds (c : ConnectionId) (j : Job) : Bool :=
  match j.work with
  | .operate c' _ => c' = c
  | _ => false

/-- Whether an errand holds a connection. -/
def Errand.holds (c : ConnectionId) : Errand → Bool
  | .attach c' => c' = c
  | .program c' _ => c' = c
  | _ => false

/-- A pipeline with what it works on. -/
structure System where
  now : Instant := 0
  pipeline : Pipeline := {}
  /-- The connections, in the order in which they were opened. -/
  connections : List Connection := []
  store : Store := {}
  /-- The results of the jobs that are done, the latest first. -/
  results : List (Ticket × Outcome Result) := []
  /-- The errands whose results were not taken, in order. -/
  errands : List (ErrandId × Errand) := []
  /-- How many errands were begun. -/
  begun : Nat := 0
deriving Inhabited

namespace System

/-- A system with a new pipeline and nothing else, if the settings make sense. -/
def new (config : Config) : Outcome System :=
  (Pipeline.new config).map fun pipeline => { pipeline }

def modifyConnection (s : System) (c : ConnectionId) (f : Connection → Connection) : System :=
  { s with connections := s.connections.modify c f }

def deviceOf? (s : System) (c : ConnectionId) : Option DeviceId :=
  (s.connections[c]?).map Connection.device

/-- The result of a message, as far as it is known. -/
def result? (s : System) (p : Promise) : Option (Outcome Message) :=
  (s.connections[p.connection]?).bind fun c => p.reply.result? c.registry

/-- How many of the results of messages are known. -/
def knownCount (s : System) (ps : List Promise) : Nat := ps.countP fun p => (s.result? p).isSome

/-- The results of messages, if all are known. -/
def results? (s : System) (ps : List Promise) : Option (List Settled) :=
  ps.mapM fun p => (s.result? p).map fun result => (p.xid, result)

/-! ## Who holds a connection -/

/-- Whether anyone holds a connection. -/
def isHeld (s : System) (c : ConnectionId) : Bool :=
  (s.connections[c]?).any (·.owned) || s.pipeline.attached.values.contains c ||
    (s.pipeline.lanes.all.any fun l => l.jobs.any (·.holds c)) ||
    s.errands.any (·.2.holds c)

/-! ## Messages -/

/-- Send a message on a connection, under a transaction id or a new one. -/
def send (s : System) (c : ConnectionId) (x : Option Xid) (m : Message) :
    Option (Promise × System) :=
  (s.connections[c]?).map fun connection =>
    let (x, connection) := match x with
      | some x => (x, connection)
      | none => connection.allocate
    let (reply, connection) := connection.send s.now x m
    (⟨c, reply⟩, s.modifyConnection c fun _ => connection)

/-! ## Programs -/

/-- What an effect leads to: an answer, or none yet, or none ever. -/
inductive Reaction (α : Type) where
  | answer (value : α) (state : System)
  | wait
  | breakOff

/-- Carry out an effect for a device on a connection. -/
def perform (s : System) (d : DeviceId) (c : ConnectionId) :
    (e : Effect) → Reaction e.Answer
  | .send m =>
    match s.send c none m with
    | some (promise, s) => .answer promise s
    | none => .breakOff
  | .await p =>
    match s.result? p with
    | some result => .answer result s
    | none => .wait
  | .gather members last =>
    match s.results? members, s.results? last.toList with
    | some results, some closing => .answer (results, closing.head?) s
    | _, _ => .wait
  | .hasGroup g => .answer (s.pipeline.groups.contains d g) s
  | .recordGroup g =>
    .answer () { s with pipeline.groups := (s.pipeline.groups.store d g).2 }
  | .forgetGroup g =>
    .answer () { s with pipeline.groups := (s.pipeline.groups.remove d g).2 }
  | .readGroup g =>
    match s.store.readGroup? d g with
    | some result => .answer result s
    | none => .breakOff
  | .noteStale flow =>
    let (result, store) := s.store.noteStale flow
    .answer result { s with store }
  | .recordFlow f descriptor =>
    .answer () { s with pipeline.flows := s.pipeline.flows.store d f descriptor }
  | .forgetFlow f =>
    .answer () { s with pipeline.flows := (s.pipeline.flows.remove d f).2 }

/-- How far a program has come. -/
inductive Progress (α : Type) where
  | finished (value : α)
  | unfinished (rest : Program α)
  | broken

/-- Run a program until it has to wait. -/
def run {α : Type} (s : System) (d : DeviceId) (c : ConnectionId) :
    Program α → Progress α × System
  | .done value => (.finished value, s)
  | .step e next =>
    match s.perform d c e with
    | .answer value s => s.run d c (next value)
    | .wait => (.unfinished (.step e next), s)
    | .breakOff => (.broken, s)

/-- A program goes on by one effect, if it does not have to wait. -/
def stepProgram {α : Type} (s : System) (d : DeviceId) (c : ConnectionId) :
    Program α → Progress α × System
  | .done value => (.finished value, s)
  | .step e next =>
    match s.perform d c e with
    | .answer value s => (.unfinished (next value), s)
    | .wait => (.unfinished (.step e next), s)
    | .breakOff => (.broken, s)

/-- Whether a program can go on. -/
def canRun {α : Type} (s : System) : Program α → Bool
  | .step (.await p) _ => (s.result? p).isSome
  | .step (.gather members last) _ =>
    s.knownCount members = members.length && last.all fun p => (s.result? p).isSome
  | _ => true

/-! ## Jobs -/

/-- Start the next job of a lane. -/
def startJob (s : System) (l : LaneId) : System :=
  { s with pipeline.lanes := s.pipeline.lanes.modify l Lane.start }

/-- End the job of a lane with a result. -/
def finishJob (s : System) (l : LaneId) (ticket : Ticket) (result : Outcome Result) : System :=
  { s with
    pipeline.lanes := s.pipeline.lanes.modify l Lane.finish
    results := (ticket, result) :: s.results }

/-- Keep what remains of the job of a lane. -/
def suspendJob (s : System) (l : LaneId) (job : Job) : System :=
  { s with pipeline.lanes := s.pipeline.lanes.modify l fun lane => { lane with running := some job } }

/-- The job of a lane goes on by one effect, or ends if nothing is left of it. -/
def stepJob (s : System) (l : LaneId) : System :=
  match s.pipeline.lanes.get? l with
  | none => s
  | some lane =>
    match lane.running with
    | none => s
    | some ⟨ticket, .operate c rest⟩ =>
      match s.stepProgram lane.device c rest with
      | (.finished result, s) => s.finishJob l ticket result
      | (.unfinished rest, s) => s.suspendJob l ⟨ticket, .operate c rest⟩
      | (.broken, s) => s.finishJob l ticket (.error (.brokenOff lane.device))
    | some ⟨ticket, .observe f⟩ =>
      let (descriptor, flows) := s.pipeline.flows.observe lane.device f
      { s with pipeline.flows := flows }.finishJob l ticket (.ok (.descriptor descriptor))
    | some ⟨ticket, .clear⟩ =>
      { s with
        pipeline.groups := s.pipeline.groups.clearDevice lane.device
        pipeline.flows := s.pipeline.flows.clearDevice lane.device
      }.finishJob l ticket (.ok .done)

/-- Whether the job of a lane can go on. -/
def jobReady (s : System) (l : LaneId) : Bool :=
  match (s.pipeline.lanes.get? l).bind Lane.running with
  | some ⟨_, .operate _ rest⟩ => s.canRun rest
  | some _ => true
  | none => false

/-- Whether a lane can start a job. -/
def laneReady (s : System) (l : LaneId) : Bool :=
  (s.pipeline.lanes.get? l).any Lane.canStart

/-! ## Connections -/

/-- One step of the writer of a connection. -/
def writerStep (s : System) (c : ConnectionId) : System :=
  s.modifyConnection c (·.writerStep (s.isHeld c))

/-- Whether the writer of a connection can go on. -/
def writerReady (s : System) (c : ConnectionId) : Bool :=
  (s.connections[c]?).any (·.writerReady (s.isHeld c))

/-- The sweeper of a connection notices that the connection has ended. -/
def sweeperStep (s : System) (c : ConnectionId) : System :=
  s.modifyConnection c (·.sweeperStep (s.isHeld c))

/-- Whether the sweeper of a connection has something to notice. -/
def sweeperReady (s : System) (c : ConnectionId) : Bool :=
  (s.connections[c]?).any (·.sweeperReady (s.isHeld c))

/-- A connection sweeps.  It is due to at regular times (`Connection.sweepsAt`),
and may come to it later. -/
def sweep (s : System) (c : ConnectionId) : System := s.modifyConnection c (·.sweep s.now)

/-- The next sweep of any connection that changes something. -/
def nextSweep? (s : System) : Option Instant :=
  (s.connections.filterMap (·.nextSweep? s.now)).min?

/-- Take a frame from the device of a connection. -/
def receive (s : System) (c : ConnectionId) (f : Frame) : System :=
  s.modifyConnection c (·.receive f)

def disconnect (s : System) (c : ConnectionId) : System :=
  s.modifyConnection c Connection.disconnect

/-! ## Devices -/

/-- Put a connection in the place of the one that its device had, which is ended. -/
def insert (s : System) (c : ConnectionId) : System :=
  match s.deviceOf? c with
  | none => s
  | some d =>
    let inserted := { s with pipeline.attached := s.pipeline.attached.set d c }
    match s.pipeline.attached.get? d with
    | none => inserted
    | some previous => inserted.disconnect previous

/-- Attach the device of a connection, without waiting after the check. -/
def attach (s : System) (c : ConnectionId) : Outcome Unit × System :=
  if s.pipeline.shuttingDown then (.error .shuttingDown, s) else (.ok (), s.insert c)

/-- Take a device out of the table, and end its connection. -/
def remove (s : System) (d : DeviceId) (c : ConnectionId) : System :=
  { s with pipeline.attached := s.pipeline.attached.erase d }.disconnect c

/-- Queue a job that clears what is recorded of a device. -/
def enqueueClear (s : System) (d : DeviceId) : Ticket × System :=
  let (ticket, pipeline) := s.pipeline.enqueue d .clear
  (ticket, { s with pipeline })

/-- Let the lane of a device take no more jobs. -/
def releaseLane (s : System) (d : DeviceId) : System :=
  { s with pipeline.lanes := (s.pipeline.lanes.removeDevice d).2 }

/-- Begin to detach a device, if it is attached: its connection is ended, and
behind all its jobs another is queued, which clears its state, before its lane is
released.  Nobody waits between these steps, so they are one.  A lane that is released
later would do as well, unless the device is attached again before. -/
def detach? (s : System) (d : DeviceId) : Option (Ticket × System) :=
  (s.pipeline.attached.get? d).map fun c =>
    let (ticket, s) := (s.remove d c).enqueueClear d
    (ticket, s.releaseLane d)

/-- Detach the first of some devices that is attached.  The others follow when
its state is cleared. -/
def detachNext (s : System) : List DeviceId → Errand × System
  | [] => (.over (.ok .done), s)
  | d :: ds =>
    match s.detach? d with
    | some (ticket, s) => (.shutdown ticket ds, s)
    | none => s.detachNext ds

end System

end Southbound
