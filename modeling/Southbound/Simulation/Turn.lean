import Southbound.Simulation.Basic

/-!
# Turns

What a task does in its turn, one step after another.

Most steps are units of work: a message that is taken from a queue, a frame that
is put on the wire or read, a result that is taken, a look into a registry or
the store.  Sending a message is none, since it only queues it.  A task has an
allowance of 128 units for a turn.  When it has used it up and needs more, even
if only to see that there is nothing to do, it rests.

`Simulation.work` is one step.  All it changes of the system, it changes by a
step of the system or of a device.
-/

namespace Southbound

/-- How many units of work a task may do in a turn. -/
def Turn.full : Nat := 128

/-- How a turn ends. -/
structure TurnEnd where
  /-- Whether the task rests. -/
  rests : Bool := false
  /-- Whether the task asks for another turn. -/
  again : Bool := false
  /-- The tasks that get a turn even if they have nothing to do in it. -/
  wakes : List Task := []
deriving Inhabited

/-- What a step of a turn leads to. -/
inductive TurnStep where
  /-- The turn goes on, and so much of the allowance is left. -/
  | goOn (allowance : Nat)
  | over (turnEnd : TurnEnd)
deriving Inhabited

/-- The units of work of an effect on its own. -/
def Effect.cost : Effect → Nat
  | .send _ => 0
  | _ => 1

namespace Simulation

/-! ## Steps of tasks -/

/-- One step of what a task does, apart from when it is taken. -/
def go (s : Simulation) : Task → Simulation
  | .sweeper c => { s with system := s.system.sweeperStep c }
  | .sweep c => { s with system := s.system.sweep c }
  | .writer c => { s with system := s.system.writerStep c }
  | .device c => (s.readFrame? c).getD s
  | .job l => { s with system := s.system.stepJob l }
  | .errand n => { s with system := s.system.stepErrand n }
  | .lane l => { s with system := s.system.startJob l }

/-- The tasks that get a turn when a task is at its end.  A lane sees that its
job is done. -/
def successors : Task → List Task
  | .job l => [.lane l]
  | _ => []

def forget (s : Simulation) (t : Task) : Simulation :=
  { s.endGathering t with resting := s.resting.filter (· ≠ t) }

/-! ## Programs -/

/-- A task goes on with its program by one effect, with so much left of its
allowance then. -/
def goOnProgram (s : Simulation) (t : Task) (allowance : Nat) : TurnStep × Simulation :=
  let s := s.go t
  if (s.program? t).isSome then (.goOn allowance, s)
  else (.over { wakes := successors t }, s.forget t)

/-- Up to so many results are all looked at whenever one of them comes in. -/
def fewResults : Nat := 30

/-- A task looks at the results that it waits for, and goes on when it has all.

A task that waits for many results, and in its look saw every one that it does
not have, asks for another turn.  It sees all of them when it looks for the
first time. -/
def gather (s : Simulation) (t : Task) (members : List Promise) (last : Option Promise)
    (allowance : Nat) : TurnStep × Simulation :=
  let known := s.system.knownCount members
  let before := (s.gathering? t).getD {}
  let (taking, left) := before.take known allowance
  let (g, left) := match last with
    | none => (taking, left)
    | some p => taking.close (s.system.result? p).isSome left
  if g.isOver members.length last.isSome then (s.endGathering t).goOnProgram t left
  else
    let putOff := taking.deferred - before.deferred
    let first := (s.gathering? t).isNone && g.taken = 0
    let seen := putOff + if first then members.length - known else 0
    (.over {
      rests := 0 < putOff || g.closeDeferred
      again := fewResults < members.length && 0 < seen && seen = members.length - g.taken },
    s.setGathering t g)

/-- A task goes on with its program. -/
def workProgram (s : Simulation) (t : Task) (rest : Program (Outcome Result)) (allowance : Nat) :
    TurnStep × Simulation :=
  match rest.next? with
  | none => s.goOnProgram t allowance
  | some (.gather members last) => s.gather t members last allowance
  | some e =>
    if allowance < e.cost then (.over { rests := true }, s)
    else if s.system.canRun rest then s.goOnProgram t (allowance - e.cost)
    else (.over {}, s)

/-! ## Connections -/

/-- Whether the writer of a connection has ended. -/
def writerStopped (s : Simulation) (c : ConnectionId) : Bool :=
  (s.system.connections[c]?).all (·.writer = .stopped)

/-- A writer goes on.  When it ends, the device sees the end of the wire. -/
def workWriter (s : Simulation) (c : ConnectionId) (allowance : Nat) : TurnStep × Simulation :=
  if s.writerStopped c then (.over {}, s)
  else if allowance = 0 then (.over { rests := true }, s)
  else if s.system.writerReady c then
    let s := s.go (.writer c)
    if s.writerStopped c then (.over { wakes := s.deviceTask c }, s)
    else (.goOn (allowance - 1), s)
  else (.over {}, s)

def workDevice (s : Simulation) (c : ConnectionId) (allowance : Nat) : TurnStep × Simulation :=
  if !s.deviceReads c then (.over {}, s)
  else if allowance = 0 then (.over { rests := true }, s)
  else if 0 < s.unread c then (.goOn (allowance - 1), s.go (.device c))
  else (.over {}, s)

/-! ## All tasks -/

def work (s : Simulation) (turn : Turn) : TurnStep × Simulation :=
  match s.program? turn.task, turn.task with
  | some rest, t => s.workProgram t rest turn.allowance
  | none, .writer c => s.workWriter c turn.allowance
  | none, .device c => s.workDevice c turn.allowance
  | none, .job l =>
    if s.system.jobReady l then (.over { wakes := [.lane l] }, s.go (.job l)) else (.over {}, s)
  | none, t => (.over {}, s.go t)

end Simulation

end Southbound
