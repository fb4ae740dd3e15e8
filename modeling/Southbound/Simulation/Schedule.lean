import Southbound.Simulation.Turn

/-!
# The order of turns

Tasks take their turns one after another, in the order in which they joined the
queue.  When a turn is over, the tasks that can go on because of it join the
queue at the end, and none waits there twice.

Tasks that rest join the queue again at the end of a round, the latest first.  A
round ends when the queue is empty, or after 61 turns.

`Simulation.settle` goes on until no task can.
-/

namespace Southbound.Simulation

/-! ## Tasks that can go on -/

/-- Whether a task has something to do.  One that gathers results has if any has
come in that it has not seen. -/
def ready (s : Simulation) (t : Task) : Bool :=
  match s.gathers? t with
  | some (members, last) =>
    let g := (s.gathering? t).getD {}
    0 < g.arrived (s.system.knownCount members) ||
      (!g.closed && !g.closeDeferred && last.any fun p => (s.system.result? p).isSome)
  | none =>
    match t with
    | .sweeper c => s.system.sweeperReady c
    | .sweep _ => false
    | .writer c => s.system.writerReady c
    | .device c => s.deviceReads c && 0 < s.unread c
    | .job l => s.system.jobReady l
    | .errand n => s.system.errandReady n
    | .lane l => s.system.laneReady l

/-- Whether a task can be woken.  A task that rests cannot, unless it gathers
results. -/
def wakeable (s : Simulation) (t : Task) : Bool :=
  !s.resting.contains t || (s.gathers? t).isSome

/-- All tasks, in the order in which those that are woken together join the
queue. -/
def tasks (s : Simulation) : List Task :=
  let connections := List.range s.system.connections.length
  let lanes := List.range s.system.pipeline.lanes.all.length
  connections.map .sweeper ++ connections.map .writer ++ connections.map .device ++
    lanes.map .job ++ s.system.errands.map (.errand ·.1) ++ lanes.map .lane

/-! ## The queue -/

/-- Tasks that do not wait in the queue join it. -/
def join (s : Simulation) (ts : List Task) : Simulation :=
  { s with queue := s.queue ++ (ts.filter (!s.queue.contains ·)).eraseDups }

/-- All tasks that can go on and do not wait for it join the queue, and so do
some others. -/
def notice (s : Simulation) (others : List Task) : Simulation :=
  s.join (s.tasks.filter fun t => others.contains t || (s.wakeable t && s.ready t))

def endTurn (s : Simulation) (t : Task) (e : TurnEnd) : Simulation :=
  let s := { s with current := none, resting := if e.rests then t :: s.resting else s.resting }
  let s := s.notice e.wakes
  if e.again then s.join [t] else s

/-- How many turns a round has at most. -/
def roundLength : Nat := 61

/-- A round ends, and no task rests any more. -/
def endRound (s : Simulation) : Simulation :=
  { s.join s.resting with
    resting := []
    turns := 0
    gatherings := s.gatherings.map fun (t, g) => (t, g.rested) }

/-- The first of the queue gets its turn. -/
def beginTurn? (s : Simulation) : Option Simulation :=
  match s.queue with
  | [] => none
  | t :: queue => some { s with queue, current := some ⟨t, Turn.full⟩, turns := s.turns + 1 }

def step? (s : Simulation) : Option Simulation :=
  match s.current with
  | some turn =>
    match s.work turn with
    | (.goOn allowance, s) => some { s with current := some { turn with allowance } }
    | (.over e, s) => some (s.endTurn turn.task e)
  | none =>
    if s.turns = roundLength || (s.queue.isEmpty && !s.resting.isEmpty) then some s.endRound
    else s.beginTurn?

/-! ## Settling -/

/-- So many steps, or all there are. -/
def steps : Nat → Simulation → Simulation
  | 0, s => s
  | n + 1, s =>
    match s.step? with
    | some s => steps n s
    | none => s

/-- More steps than are ever taken while the clock stands still. -/
def patience : Nat := Nat.pow 2 40

def settle (s : Simulation) : Simulation := steps patience { s.notice [] with turns := 0 }

end Southbound.Simulation
