import Southbound.Simulation.Clock

/-!
# Sessions

A session is a simulation that is driven from outside, turn by turn.

A turn is a list of commands.  Their immediate parts are done one after another,
with nothing else going on between them, and then everything goes on until
nothing can.  The `Report` of a turn has the answers to the commands and tells
what has happened since the last one.
-/

namespace Southbound

/-! ## Commands and answers -/

/-- What a session can be told to do. -/
inductive Command where
  /-- Open a connection to a device with rules. -/
  | openConnection (name : String) (device : DeviceId) (rules : List DeviceRule)
      (wireCapacity : Nat) (manual : Bool) (unwritable : List Xid)
  | attach (name : String)
  | detach (device : DeviceId)
  /-- Detach all devices, and accept no more requests. -/
  | shutdown
  | disconnect (name : String)
  /-- Hold a connection no more.  Its device only reads from then on. -/
  | forget (name : String)
  /-- Let a frame arrive from a device. -/
  | inbound (name : String) (frame : Frame)
  | setRules (name : String) (rules : List DeviceRule)
  /-- Let a device read up to so many frames. -/
  | drain (name : String) (count : Option Nat)
  | closeWire (name : String)
  | advance (ms : Nat)
  | putGroup (device : DeviceId) (group : Group)
  | removeGroup (device : DeviceId) (group : GroupId)
  | readGroup (device : DeviceId) (group : GroupId)
  /-- Whether reads of the store fail. -/
  | failReads (on : Bool)
  /-- Whether writes to the store fail. -/
  | failWrites (on : Bool)
  /-- The failure of every read of the store. -/
  | readFault (fault : Option Failure)
  /-- Whether whoever reads the store breaks off. -/
  | breakReads (on : Bool)
  | staleFlows
  | submit (request : Request)
  /-- Tell of a change of the configuration. -/
  | change (event : ChangeEvent)
  | noteStale (flow : StaleFlow)
  /-- Look up the descriptor of a flow. -/
  | retrieve (device : DeviceId) (flow : Flow)
  /-- See whether a device is known to have a group. -/
  | hasGroup (device : DeviceId) (group : GroupId)
  | send (name : String) (message : Message) (xid : Option Xid)
  | barrier (name : String)
  /-- Make one batch of messages that were sent. -/
  | compose (name : String) (members : List ErrandId) (barrierAfter : Option Bool)
  | cancel (errand : ErrandId)
  | abandon (errand : ErrandId)

/-- What a session answers to a command. -/
inductive Answer where
  | none
  /-- That the command cannot be carried out. -/
  | refused
  /-- That the queue of a connection cannot be made. -/
  | impossible
  | truth (value : Bool)
  | count (value : Nat)
  /-- That an errand is not waited for any more. -/
  | gone
  | begun (errand : ErrandId)
  /-- The number of an errand and the transaction id of its message. -/
  | sent (errand : ErrandId) (xid : Xid)
  | group (group : Option Group)
  /-- What a look-up of a group comes to. -/
  | lookup (result : Outcome (Option Group))
  | staleFlows (flows : List StaleFlow)
  /-- The descriptor of a flow, if there is one. -/
  | descriptor (descriptor : Option FlowDescriptor)

/-- What is told of a connection after a turn. -/
structure ConnectionReport where
  name : String
  /-- The frames that its device has read since the last report. -/
  frames : List Frame
  /-- Whether it accepts messages, if anyone can say. -/
  connected : Option Bool
  /-- How many requests have no result. -/
  pending : Nat

/-- What is told of a device after a turn. -/
structure DeviceReport where
  device : DeviceId
  /-- The groups that it is known to have. -/
  groups : List GroupId
  /-- How many of its flows are known. -/
  flows : Nat

/-- What is told after a turn. -/
structure Report where
  answers : List Answer
  /-- The results of the errands that ended. -/
  ended : List (ErrandId × Outcome Result)
  connections : List ConnectionReport
  devices : List DeviceReport
  attached : List DeviceId
  /-- How many flows were noted as stale. -/
  stale : Nat

/-! ## Sessions -/

/-- A simulation that is driven from outside. -/
abbrev Session := Simulation

namespace Session

/-- A session with a pipeline, if its settings make sense. -/
def new (config : Config) : Outcome Session :=
  (System.new config).map fun system => { system }

/-- The connection that was opened last under a name. -/
def connection? (s : Session) (name : String) : Option ConnectionId :=
  (List.range s.devices.length).reverse.find? fun c => (s.devices[c]?).any (·.name = name)

/-- The connection under a name, if it was not forgotten. -/
def owned? (s : Session) (name : String) : Option ConnectionId :=
  (s.connection? name).filter fun c => (s.system.connections[c]?).any (·.owned)

def openConnection (s : Session) (device : ScriptedDevice) (d : DeviceId) (wireCapacity : Nat)
    (codec : Codec) : Answer × Session :=
  match Connection.open? d codec wireCapacity s.system.pipeline.config s.system.now with
  | none => (.impossible, s)
  | some connection =>
    (.none, { s with
      system.connections := s.system.connections ++ [connection]
      devices := s.devices ++ [device] })

/-- Do something with a connection that has a name. -/
def withConnection (s : Session) (c : Option ConnectionId) (f : ConnectionId → Answer × Session) :
    Answer × Session :=
  match c with
  | some c => f c
  | none => (.refused, s)

/-- The answer of an errand that was begun. -/
def begun (s : Session) (r : ErrandId × System) : Answer × Session :=
  (.begun r.1, { s with system := r.2 })

def withStore (s : Session) (f : Store → Store) : Answer × Session :=
  (.none, { s with system.store := f s.system.store })

def perform (s : Session) : Command → Answer × Session
  | .openConnection name d rules wireCapacity manual unwritable =>
    s.openConnection { name, rules, manual } d wireCapacity (.refusing unwritable "scripted")
  | .attach name => s.withConnection (s.owned? name) fun c => begun s (s.system.beginAttach c)
  | .detach d => begun s (s.system.beginDetach d)
  | .shutdown => begun s s.system.beginShutdown
  | .disconnect name => s.withConnection (s.owned? name) fun c =>
    (.none, { s with system := s.system.disconnect c })
  | .forget name => s.withConnection (s.connection? name) fun c =>
    (.none, { s with
      system := s.system.modifyConnection c fun connection => { connection with owned := false }
      devices := s.devices.modify c fun device => { device with silent := true } })
  | .inbound name frame => s.withConnection (s.owned? name) fun c =>
    (.none, { s with system := s.system.receive c frame })
  | .setRules name rules => s.withConnection (s.connection? name) fun c =>
    (.none, { s with devices := s.devices.modify c fun device => { device with rules } })
  | .drain name count => s.withConnection (s.connection? name) fun c =>
    let (n, s) := Simulation.drain c (count.getD Simulation.patience) s
    (.count n, s)
  | .closeWire name => s.withConnection (s.connection? name) fun c =>
    (.none, { s with system := s.system.modifyConnection c fun connection =>
      { connection with wire := connection.wire.close } })
  | .advance ms => (.none, Simulation.advance s ms)
  | .putGroup d g => s.withStore fun store => store.putGroup d g
  | .removeGroup d g =>
    let (group, store) := s.system.store.removeGroup d g
    (.group group, { s with system.store := store })
  | .readGroup d g =>
    match s.system.store.readGroup? d g with
    | some result => (.lookup result, s)
    | none => (.impossible, s)
  | .failReads on => s.withStore fun store => { store with failReads := on }
  | .failWrites on => s.withStore fun store => { store with failWrites := on }
  | .readFault fault => s.withStore fun store => { store with readFault := fault }
  | .breakReads on => s.withStore fun store => { store with breakReads := on }
  | .staleFlows => (.staleFlows s.system.store.stale, s)
  | .submit r => begun s (s.system.submit r false)
  | .change e => begun s (s.system.handle e)
  | .noteStale flow => begun s (s.system.noteStale flow)
  | .retrieve d f => (.descriptor (s.system.pipeline.flows.retrieve d f), s)
  | .hasGroup d g => (.truth (s.system.pipeline.groups.contains d g), s)
  | .send name m x => s.withConnection (s.owned? name) fun c =>
    match s.system.beginSend? c x m with
    | some (n, x, system) => (.sent n x, { s with system })
    | none => (.refused, s)
  | .barrier name => s.withConnection (s.owned? name) fun c => begun s (s.system.beginBarrier c)
  | .compose name members barrierAfter => s.withConnection (s.connection? name) fun c =>
    match s.system.beginBatch? c members barrierAfter with
    | some r => begun s r
    | none => (.refused, s)
  | .cancel n =>
    match s.system.cancel? n with
    | some (withdrawn, system) => (.truth withdrawn, { s with system })
    | none => (.gone, s)
  | .abandon n =>
    let (was, system) := s.system.abandon n
    (if was then .none else .gone, { s with system })

/-- The tasks of a connection, in the order in which they get their first turn. -/
def connectionTasks (s : Session) (c : ConnectionId) : List Task :=
  [.writer c, .sweeper c] ++ Simulation.deviceTask s c

/-- An errand is a task from its beginning, unless it is over or waits for the
result of a message.  One that waits for several results has looked at them. -/
def startErrand (s : Session) (n : ErrandId) : Session :=
  let t : Task := .errand n
  match s.system.errand? n with
  | none | some (.over _) | some (.reply _) => s
  | some _ =>
    let s := Simulation.join s [t]
    match Simulation.gathers? s t with
    | none => s
    | some (members, last) => s.setGathering t {
        taken := s.system.knownCount members
        closed := last.any fun p => (s.system.result? p).isSome }

/-- What a command has opened or begun gets a turn, and so does what can go on
because of it. -/
def follow (before s : Session) : Session :=
  let opened := (List.range s.devices.length).drop before.devices.length
  let begun := (List.range s.system.begun).drop before.system.begun
  let s := Simulation.join s (opened.flatMap s.connectionTasks)
  begun.foldl startErrand (Simulation.notice s [])

/-- The immediate parts of commands, one after another.  What gets a turn because
of one waits before what does because of the next. -/
def performAll (s : Session) : List Command → List Answer × Session
  | [] => ([], s)
  | c :: cs =>
    let (answer, after) := s.perform c
    let (answers, s) := performAll (follow s after) cs
    (answer :: answers, s)

/-! ## Reports -/

/-- What is told of a connection, if it is the last under its name. -/
def connectionReport? (s : Session) (c : ConnectionId) : Option ConnectionReport := do
  let connection ← s.system.connections[c]?
  let device ← s.devices[c]?
  if s.connection? device.name = some c then
    return {
      name := device.name
      frames := connection.wire.read.drop device.reported
      connected := if connection.owned then some connection.connected else none
      pending := connection.registry.pendingCount }
  else none

def deviceReport (s : Session) (d : DeviceId) : DeviceReport where
  device := d
  groups := s.system.pipeline.groups.groups d
  flows := s.system.pipeline.flows.count d

def report (s : Session) (answers : List Answer) : Report × Session :=
  let (ended, system) := s.system.takeResults
  ({
    answers
    ended
    connections := (List.range s.devices.length).filterMap s.connectionReport?
    devices := (s.system.connections.map Connection.device).eraseDups.map s.deviceReport
    attached := s.system.pipeline.devices
    stale := s.system.store.stale.length },
  { s with
    system
    devices := s.system.connections.zipWith (fun connection device =>
      { device with reported := connection.wire.taken }) s.devices })

def turn (s : Session) (commands : List Command) : Report × Session :=
  let (answers, s) := s.performAll commands
  report s.settle answers

end Session

end Southbound
