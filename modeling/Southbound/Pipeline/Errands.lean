import Southbound.Pipeline.System

/-!
# Errands

How errands are begun and how they go on.  An errand that cannot be begun is
over at once, with the failure as its result.  One that waits for the result of
a message does nothing itself: it is over when the result is known.
-/

namespace Southbound.System

/-! ## Going on -/

def errand? (s : System) (n : ErrandId) : Option Errand := s.errands.lookup n

/-- The result of a job, if it is done. -/
def jobResult? (s : System) (t : Ticket) : Option (Outcome Result) := s.results.lookup t

/-- The errand that has come so far with its program on a connection to a
device. -/
def Progress.errand (d : DeviceId) (c : ConnectionId) : Progress (Outcome Result) → Errand
  | .finished result => .over result
  | .unfinished rest => .program c rest
  | .broken => .over (.error (.brokenOff d))

/-- The device of a connection for which an errand runs a program. -/
def errandDevice (s : System) (c : ConnectionId) : DeviceId := (s.deviceOf? c).getD default

/-- What an errand is after it went on, if it can go on. -/
def advanceErrand? (s : System) : Errand → Option (Errand × System)
  | .over _ => none
  | .job t quiet => (s.jobResult? t).map fun result =>
    (.over (if quiet then result.map fun _ => .done else result), s)
  | .attach c => some (.over (.ok .done), s.insert c)
  | .detach t => (s.jobResult? t).map fun _ => (.over (.ok (.detached true)), s)
  | .shutdown t rest => (s.jobResult? t).map fun _ => s.detachNext rest
  | .reply _ => none
  | .program c rest =>
    if s.canRun rest then
      let d := s.errandDevice c
      let (progress, s) := s.stepProgram d c rest
      some (progress.errand d c, s)
    else none

/-- Put an errand in the place of another. -/
def setErrand (s : System) (n : ErrandId) (e : Errand) : System :=
  { s with errands := s.errands.map fun (n', e') => (n', if n' = n then e else e') }

/-- An errand goes on, by one effect if it runs a program. -/
def stepErrand (s : System) (n : ErrandId) : System :=
  match (s.errand? n).bind s.advanceErrand? with
  | some (e, s) => s.setErrand n e
  | none => s

/-- Whether an errand can go on. -/
def errandReady (s : System) (n : ErrandId) : Bool :=
  match s.errand? n with
  | none => false
  | some (.over _) => false
  | some (.job t _) => (s.jobResult? t).isSome
  | some (.attach _) => true
  | some (.detach t) => (s.jobResult? t).isSome
  | some (.shutdown t _) => (s.jobResult? t).isSome
  | some (.reply _) => false
  | some (.program _ rest) => s.canRun rest

/-- The result of an errand, if it is over. -/
def outcome? (s : System) : Errand → Option (Outcome Result)
  | .over result => some result
  | .reply p => (s.result? p).map fun result => result.map .message
  | _ => none

/-- Take the results of the errands that are over. -/
def takeResults (s : System) : List (ErrandId × Outcome Result) × System :=
  (s.errands.filterMap fun (n, e) => (s.outcome? e).map fun result => (n, result),
    { s with errands := s.errands.filter fun (_, e) => (s.outcome? e).isNone })

/-! ## Beginning -/

def begin (s : System) (e : Errand) : ErrandId × System :=
  (s.begun, { s with errands := s.errands ++ [(s.begun, e)], begun := s.begun + 1 })

def submit (s : System) (r : Request) (quiet : Bool) : ErrandId × System :=
  match s.pipeline.submit r with
  | (.error e, _) => s.begin (.over (.error e))
  | (.ok ticket, pipeline) => { s with pipeline }.begin (.job ticket quiet)

/-- Ask for the operation that a change of the configuration asks for. -/
def handle (s : System) (e : ChangeEvent) : ErrandId × System := s.submit e.request true

/-- Note a flow as stale, without touching its device. -/
def noteStale (s : System) (flow : StaleFlow) : ErrandId × System :=
  match (checkTableId flow.path flow.flow).mapError RequestFault.toFailure with
  | .error e => s.begin (.over (.error e))
  | .ok () =>
    let (result, store) := s.store.noteStale flow
    { s with store }.begin (.over (result.map fun _ => .done))

/-- A connection is attached by someone who does not have to wait for the table of
the devices. -/
def beginAttach (s : System) (c : ConnectionId) : ErrandId × System :=
  let (result, s) := s.attach c
  s.begin (.over (result.map fun _ => .done))

/-- A connection is to be attached by someone who has to wait for the table of the
devices.  Whether requests are accepted is seen before that. -/
def beginLateAttach (s : System) (c : ConnectionId) : ErrandId × System :=
  s.begin (if s.pipeline.shuttingDown then .over (.error .shuttingDown) else .attach c)

def beginDetach (s : System) (d : DeviceId) : ErrandId × System :=
  match s.detach? d with
  | some (ticket, s) => s.begin (.detach ticket)
  | none => s.begin (.over (.ok (.detached false)))

/-- Accept no more requests, and detach all devices in ascending order. -/
def beginShutdown (s : System) : ErrandId × System :=
  if s.pipeline.shuttingDown then s.begin (.over (.ok .done))
  else
    let (e, s) := { s with pipeline.shuttingDown := true }.detachNext s.pipeline.devices
    s.begin e

def beginSend? (s : System) (c : ConnectionId) (x : Option Xid) (m : Message) :
    Option (ErrandId × Xid × System) :=
  (s.send c x m).map fun (promise, s) =>
    let (n, s) := s.begin (.reply promise)
    (n, promise.xid, s)

/-- Run a program on a connection.  It goes on at once until it has to wait. -/
def beginProgram (s : System) (c : ConnectionId) (o : Operation Unit) : ErrandId × System :=
  let d := s.errandDevice c
  let (progress, s) := s.run d c (Functor.map (fun _ => Result.done) o).run
  s.begin (progress.errand d c)

def beginBarrier (s : System) (c : ConnectionId) : ErrandId × System :=
  s.beginProgram c .barrier

/-- The messages that errands wait for, if they do, and the state without these
errands. -/
def takePromises? (s : System) : List ErrandId → Option (List Promise × System)
  | [] => some ([], s)
  | n :: ns =>
    match s.errand? n with
    | some (.reply p) => do
      let (ps, s) ← { s with errands := s.errands.filter (·.1 ≠ n) }.takePromises? ns
      return (p :: ps, s)
    | _ => none

/-- Make one batch, on a connection, of messages that errands wait for.  A
barrier on the connection may close it. -/
def beginBatch? (s : System) (c : ConnectionId) (ns : List ErrandId) (barrierAfter : Option Bool) :
    Option (ErrandId × System) :=
  (s.takePromises? ns).map fun (members, s) =>
    s.beginProgram c <| match barrierAfter with
      | none => .compose members
      | some barrierAfter => .composeWithBarrier members barrierAfter

/-! ## Giving up -/

/-- Withdraw the message of an outcome that is waited for. -/
def withdraw (s : System) (p : Promise) : Bool × System :=
  match s.connections[p.connection]? with
  | none => (false, s)
  | some c =>
    let (withdrawn, registry) := p.reply.cancel c.registry
    (withdrawn, s.modifyConnection p.connection fun c => { c with registry })

/-- Withdraw the message that an errand waits for, and say whether it was
withdrawn. -/
def cancel? (s : System) (n : ErrandId) : Option (Bool × System) :=
  (s.errand? n).map fun
    | .reply p => s.withdraw p
    | _ => (false, s)

/-- Wait for an errand no more, and say whether it was waited for. -/
def abandon (s : System) (n : ErrandId) : Bool × System :=
  ((s.errand? n).isSome, { s with errands := s.errands.filter (·.1 ≠ n) })

end Southbound.System
