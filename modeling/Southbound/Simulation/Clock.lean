import Southbound.Simulation.Schedule

/-!
# The clock

The clock stands still until nothing can go on.  Then it goes to the next moment
at which something happens, which is a sweep that changes something.

A device that does not read by itself is told when to (`Simulation.drain`).  The
clock stands still then.
-/

namespace Southbound.Simulation

/-! ## Time -/

/-- The sweepers that sweep now, in the order of their connections. -/
def sweeps (s : Simulation) : List Task :=
  (List.range s.system.connections.length).filterMap fun c =>
    if (s.system.connections[c]?).any fun connection =>
        connection.sweeper ≠ .stopped && connection.sweepsAt s.system.now then
      some (.sweep c)
    else none

/-- The clock goes to the next moment, up to a given one, at which something
happens, and everything goes on until nothing can. -/
def nextMoment? (target : Instant) (s : Simulation) : Option Simulation :=
  match s.system.nextSweep? with
  | none => none
  | some t =>
    if t ≤ target then
      let s := { s with system.now := t }
      some (s.join s.sweeps).settle
    else none

/-- So many moments up to a given one, or all there are. -/
def moments (target : Instant) : Nat → Simulation → Simulation
  | 0, s => s
  | n + 1, s =>
    match s.nextMoment? target with
    | some s => moments target n s
    | none => s

def advance (s : Simulation) (ms : Nat) : Simulation :=
  let target := s.system.now + ms
  let s := moments target patience s.settle
  { s with system.now := target }

/-! ## Reading by hand -/

/-- The device of a connection reads up to so many frames.  Before each,
everything goes on until nothing can.  The answer is how many it has read. -/
def drain (c : ConnectionId) : Nat → Simulation → Nat × Simulation
  | 0, s => (0, s)
  | n + 1, s =>
    let s := s.settle
    match s.readFrame? c with
    | none => (0, s)
    | some s =>
      let (count, s) := drain c n s
      (count + 1, s)

end Southbound.Simulation
