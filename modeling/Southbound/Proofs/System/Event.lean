import Southbound.Pipeline.Errands
import Southbound.Proofs.Connection.Run

/-!
# Runs of the system

Everything that can happen in a `System` is an `Event`: somebody opens or uses a
connection or asks the pipeline for something, the store or the clock changes, the
device of a connection reads or answers, or a lane, a job, an errand, a writer or a
sweeper goes on.

A run is a list of events, and nothing is said of their order: whatever comes next in
any schedule is one of them.  What holds after every list of events holds in every
state that the program can come to.
-/

namespace Southbound.System

/-- What can happen in the system. -/
inductive Event where
  /-- A connection to a device is opened. -/
  | openConnection (device : DeviceId) (codec : Codec) (wireCapacity : Nat)
  /-- A message is sent on a connection. -/
  | send (connection : ConnectionId) (xid : Option Xid) (message : Message)
  /-- A barrier is sent on a connection. -/
  | barrier (connection : ConnectionId)
  /-- One batch is made of messages that errands wait for. -/
  | compose (connection : ConnectionId) (members : List ErrandId) (barrierAfter : Option Bool)
  /-- The message that an errand waits for is withdrawn. -/
  | cancel (errand : ErrandId)
  /-- An errand is not waited for any more. -/
  | abandon (errand : ErrandId)
  /-- The results of the errands that are over are taken. -/
  | takeResults
  /-- A frame arrives from the device of a connection. -/
  | receive (connection : ConnectionId) (frame : Frame)
  /-- The device of a connection reads a frame. -/
  | read (connection : ConnectionId)
  /-- The device of a connection reads no more. -/
  | closeWire (connection : ConnectionId)
  | disconnect (connection : ConnectionId)
  /-- Whoever opened a connection does not hold it any more. -/
  | forget (connection : ConnectionId)
  /-- The writer of a connection goes on. -/
  | writer (connection : ConnectionId)
  /-- The sweeper of a connection notices whether the connection has ended. -/
  | sweeper (connection : ConnectionId)
  /-- The sweeper of a connection sweeps, at whatever moment it comes to that. -/
  | sweep (connection : ConnectionId)
  | tick (ms : Nat)
  | putGroup (device : DeviceId) (group : Group)
  /-- A group is configured no longer. -/
  | removeGroup (device : DeviceId) (group : GroupId)
  /-- What is wrong with the store changes. -/
  | setFaults (failReads failWrites breakReads : Bool) (readFault : Option Failure)
  | submit (request : Request) (quiet : Bool)
  /-- A flow is to be noted as stale. -/
  | noteStale (flow : StaleFlow)
  /-- The device of a connection is attached, without waiting after the check. -/
  | attach (connection : ConnectionId)
  /-- The device of a connection is to be attached by an errand, which passes the check
  now and has to wait. -/
  | lateAttach (connection : ConnectionId)
  | detach (device : DeviceId)
  /-- All devices are detached, and no more requests are accepted. -/
  | shutdown
  /-- A lane starts its next job. -/
  | startJob (lane : LaneId)
  /-- The job of a lane goes on by one effect. -/
  | stepJob (lane : LaneId)
  | stepErrand (errand : ErrandId)

/-- The system after an event. -/
def after (s : System) : Event → System
  | .openConnection d codec wireCapacity =>
    match Connection.open? d codec wireCapacity s.pipeline.config s.now with
    | some connection => { s with connections := s.connections ++ [connection] }
    | none => s
  | .send c x m => ((s.beginSend? c x m).map (·.2.2)).getD s
  | .barrier c => (s.beginBarrier c).2
  | .compose c ns barrierAfter => ((s.beginBatch? c ns barrierAfter).map (·.2)).getD s
  | .cancel n => ((s.cancel? n).map (·.2)).getD s
  | .abandon n => (s.abandon n).2
  | .takeResults => s.takeResults.2
  | .receive c f => s.receive c f
  | .read c => s.modifyConnection c (·.after .read)
  | .closeWire c => s.modifyConnection c (·.after .closeWire)
  | .disconnect c => s.disconnect c
  | .forget c => s.modifyConnection c (·.after .forget)
  | .writer c => s.writerStep c
  | .sweeper c => s.sweeperStep c
  | .sweep c => s.sweep c
  | .tick ms => { s with now := s.now + ms }
  | .putGroup d g => { s with store := s.store.putGroup d g }
  | .removeGroup d g => { s with store := (s.store.removeGroup d g).2 }
  | .setFaults failReads failWrites breakReads readFault =>
    { s with store := { s.store with failReads, failWrites, breakReads, readFault } }
  | .submit r quiet => (s.submit r quiet).2
  | .noteStale flow => (s.noteStale flow).2
  | .attach c => (s.beginAttach c).2
  | .lateAttach c => (s.beginLateAttach c).2
  | .detach d => (s.beginDetach d).2
  | .shutdown => s.beginShutdown.2
  | .startJob l => s.startJob l
  | .stepJob l => s.stepJob l
  | .stepErrand n => s.stepErrand n

/-- The system after some events. -/
def go (s : System) (es : List Event) : System := es.foldl after s

/-- The connection that an event attaches, if it attaches one. -/
def attaching? (s : System) : Event → Option ConnectionId
  | .attach c => if s.pipeline.shuttingDown then none else some c
  | .stepErrand n =>
    match s.errand? n with
    | some (.attach c) => some c
    | _ => none
  | _ => none

/-- The system of the default settings before anything has happened. -/
def start : System := (System.new {}).toOption.get rfl

theorem new_start : System.new {} = .ok start := rfl

@[simp] theorem go_nil (s : System) : s.go [] = s := rfl

@[simp] theorem go_cons (s : System) (e : Event) (es : List Event) :
    s.go (e :: es) = (s.after e).go es := rfl

theorem go_append (s : System) (es es' : List Event) : s.go (es ++ es') = (s.go es).go es' :=
  List.foldl_append

theorem go_concat (s : System) (es : List Event) (e : Event) :
    s.go (es ++ [e]) = (s.go es).after e :=
  go_append s es [e]

/-- A connection takes its place at once, if requests are accepted. -/
theorem after_attach (s : System) (c : ConnectionId) :
    s.after (.attach c) =
      if s.pipeline.shuttingDown then (s.begin (.over (.error .shuttingDown))).2
      else ((s.insert c).begin (.over (.ok .done))).2 := by
  simp only [after, beginAttach, attach]
  split <;> rfl

/-- An errand that waits to attach a connection does so when it goes on. -/
theorem stepErrand_attach {s : System} {n : ErrandId} {c : ConnectionId}
    (h : s.errand? n = some (.attach c)) :
    s.stepErrand n = (s.insert c).setErrand n (.over (.ok .done)) := by
  rw [stepErrand, h]
  rfl

/-- Whoever attaches a connection puts it in its place and does nothing else. -/
theorem after_of_attaching {s : System} {e : Event} {c : ConnectionId}
    (h : s.attaching? e = some c) :
    (s.after e).pipeline = (s.insert c).pipeline ∧
      (s.after e).connections = (s.insert c).connections := by
  cases e with
  | attach c' =>
      rw [attaching?] at h
      split at h
      · cases h
      · next hruns =>
          cases h
          rw [after_attach, if_neg hruns]
          exact ⟨rfl, rfl⟩
  | stepErrand n =>
      rw [attaching?] at h
      split at h
      · next hn =>
          cases h
          rw [after, stepErrand_attach hn]
          exact ⟨rfl, rfl⟩
      · cases h
  | _ => cases h

/-- A new system has its settings and nothing else. -/
theorem eq_of_new {config : Config} {s₀ : System} (h : System.new config = .ok s₀) :
    s₀ = { pipeline := { config, flows := { policy := config.keys } } } := by
  rw [System.new, Pipeline.new] at h
  split at h
  · cases h
  · cases h
    rfl

/-- What holds at first and is kept by every event holds after every run. -/
theorem inv_go (inv : System → Prop) (hstep : ∀ s e, inv s → inv (s.after e)) {s : System}
    (h : inv s) (es : List Event) : inv (s.go es) := by
  induction es generalizing s with
  | nil => exact h
  | cons e es ih => exact ih (hstep s e h)

end Southbound.System
