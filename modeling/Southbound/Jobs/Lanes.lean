import Southbound.Identity

/-!
# Lanes of jobs

The jobs of a device are done one at a time, in the order in which they were
queued.  A *lane* is the queue of a device with the job that is being done.

A lane can be released.  It takes no more jobs then, but those it has are done.
If more jobs are queued for the device, they go to a new lane beside it.
-/

namespace Southbound

/-- The number of a lane, in the order in which lanes were made. -/
abbrev LaneId := Nat

/-- The jobs of a device, which are done one after another. -/
structure Lane (ι : Type) where
  device : DeviceId
  /-- How many lanes the device had before. -/
  generation : Nat
  /-- The job that is being done. -/
  running : Option ι := none
  /-- The jobs to be done after it. -/
  waiting : List ι := []
  /-- Whether no more jobs are taken. -/
  released : Bool := false
deriving Inhabited

/-- The lanes of all devices, in the order in which they were made. -/
structure Lanes (ι : Type) where
  all : List (Lane ι) := []
deriving Inhabited

variable {ι : Type}

/-! ## One lane -/

def Lane.push (l : Lane ι) (job : ι) : Lane ι := { l with waiting := l.waiting ++ [job] }

/-- A lane that does its next job, if it does none. -/
def Lane.start (l : Lane ι) : Lane ι :=
  match l.running, l.waiting with
  | none, job :: jobs => { l with running := some job, waiting := jobs }
  | _, _ => l

def Lane.finish (l : Lane ι) : Lane ι := { l with running := none }

/-- Whether a lane can start a job. -/
def Lane.canStart (l : Lane ι) : Bool := l.running.isNone && !l.waiting.isEmpty

/-- All jobs of a lane that are not done, in their order. -/
def Lane.jobs (l : Lane ι) : List ι := l.running.toList ++ l.waiting

/-! ## All lanes -/

/-- Whether a lane takes jobs of a device. -/
def Lane.takes (d : DeviceId) (l : Lane ι) : Bool := l.device = d && !l.released

/-- Queue a job for a device, in its lane or in a new one. -/
def Lanes.enqueue (ls : Lanes ι) (d : DeviceId) (job : ι) : Lanes ι :=
  if ls.all.any (·.takes d) then
    ⟨ls.all.map fun l => if l.takes d then l.push job else l⟩
  else
    ⟨ls.all ++ [{
      device := d
      generation := (ls.all.filter (·.device = d)).length
      waiting := [job] }]⟩

/-- Release the lane of a device, and say whether it had one. -/
def Lanes.removeDevice (ls : Lanes ι) (d : DeviceId) : Bool × Lanes ι :=
  (ls.all.any (·.takes d),
    ⟨ls.all.map fun l => if l.takes d then { l with released := true } else l⟩)

/-- How many lanes take jobs. -/
def Lanes.deviceCount (ls : Lanes ι) : Nat := (ls.all.filter (!·.released)).length

def Lanes.get? (ls : Lanes ι) (i : LaneId) : Option (Lane ι) := ls.all[i]?

def Lanes.modify (ls : Lanes ι) (i : LaneId) (f : Lane ι → Lane ι) : Lanes ι :=
  ⟨ls.all.modify i f⟩

end Southbound
