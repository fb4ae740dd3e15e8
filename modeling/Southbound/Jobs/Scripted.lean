import Southbound.Failure
import Southbound.Jobs.Lanes

/-!
# Scripted jobs

Jobs that do what a script says, to watch the lanes at work: a job returns a
value or a failure, breaks off, waits for a gate or opens one.  A gate stays
open once it was opened.

`Workshop.settle` lets every lane go on until none can.  What happens is kept
in a log: a job writes a line when it starts, and one when it ends unless it
breaks off.
-/

namespace Southbound

/-- What a job of a script does. -/
inductive ScriptedTask (α : Type) where
  | give (value : α)
  | refuse (cause : Failure)
  | breakOff
  /-- Wait for a gate, and return a value. -/
  | pass (gate : String) (value : α)
  /-- Open a gate, and return a value. -/
  | unlock (gate : String) (value : α)
deriving Inhabited

/-- A job of a script, with its number. -/
structure ScriptedJob (α : Type) where
  number : Nat
  task : ScriptedTask α
deriving Inhabited

/-- A line of the log: that a job has started or ended. -/
structure LogLine where
  device : DeviceId
  /-- How many lanes the device had before. -/
  generation : Nat
  /-- Whether it is the end of a job. -/
  isEnd : Bool
  job : Nat
deriving Repr, Inhabited

/-- The lanes with what is happening in them. -/
structure Workshop (α : Type) where
  lanes : Lanes (ScriptedJob α) := {}
  gates : List String := []
  /-- The lines that were written, the latest first. -/
  log : List LogLine := []
  /-- The jobs that ended, the latest first, with their results. -/
  done : List (Nat × Outcome α) := []
  next : Nat := 0
deriving Inhabited

namespace Workshop

variable {α : Type}

/-- Queue a job, and give its number. -/
def enqueue (w : Workshop α) (d : DeviceId) (task : ScriptedTask α) : Nat × Workshop α :=
  (w.next, { w with
    lanes := w.lanes.enqueue d ⟨w.next, task⟩
    next := w.next + 1 })

def openGate (w : Workshop α) (gate : String) : Workshop α :=
  { w with gates := gate :: w.gates }

/-- Release the lane of a device, and say whether it had one. -/
def removeDevice (w : Workshop α) (d : DeviceId) : Bool × Workshop α :=
  let r := w.lanes.removeDevice d
  (r.1, { w with lanes := r.2 })

/-- The result of a task, if it can end, with the gate that it opens. -/
def outcome? (w : Workshop α) (d : DeviceId) : ScriptedTask α → Option (Outcome α × Option String)
  | .give value => some (.ok value, none)
  | .refuse cause => some (.error cause, none)
  | .breakOff => some (.error (.brokenOff d), none)
  | .pass gate value => if w.gates.contains gate then some (.ok value, none) else none
  | .unlock gate value => some (.ok value, some gate)

/-- Whether a task breaks off. -/
def breaks : ScriptedTask α → Bool
  | .breakOff => true
  | _ => false

/-- One step of a lane: it starts its next job, or ends the one it does. -/
def step (w : Workshop α) (i : LaneId) : Workshop α :=
  match w.lanes.get? i with
  | none => w
  | some l =>
    match l.running with
    | none =>
      match l.waiting with
      | [] => w
      | job :: _ =>
        { w with
          lanes := w.lanes.modify i Lane.start
          log := ⟨l.device, l.generation, false, job.number⟩ :: w.log }
    | some job =>
      match w.outcome? l.device job.task with
      | none => w
      | some (result, gate) =>
        { w with
          lanes := w.lanes.modify i Lane.finish
          gates := gate.toList ++ w.gates
          log := if breaks job.task then w.log
            else ⟨l.device, l.generation, true, job.number⟩ :: w.log
          done := (job.number, result) :: w.done }

/-- How many jobs are not done. -/
def openJobs (w : Workshop α) : Nat := (w.lanes.all.flatMap Lane.jobs).length

def round (w : Workshop α) : Workshop α := (List.range w.lanes.all.length).foldl step w

def rounds : Nat → Workshop α → Workshop α
  | 0, w => w
  | n + 1, w => rounds n w.round

/-- Every lane goes on until none can.  A round in which nothing happens is the
last in which something could, so two for each job are enough. -/
def settle (w : Workshop α) : Workshop α := w.rounds (2 * w.openJobs)

end Workshop

end Southbound
