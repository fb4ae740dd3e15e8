import Southbound.Operation.Program

/-!
# Operations

A program that may fail, and the effects as such programs.  After a failure
nothing more of an operation is done.
-/

namespace Southbound

/-- A program whose value may be a failure. -/
abbrev Operation (α : Type) := ExceptT Failure Program α

namespace Operation

/-- Send a message under a new transaction id. -/
def send (m : Message) : Operation Promise := ExceptT.lift (.perform (.send m))

/-- Wait for the result of a message, whatever it is. -/
def settled (p : Promise) : Operation (Outcome Message) := ExceptT.lift (.perform (.await p))

/-- Wait for the reply to a message. -/
def reply (p : Promise) : Operation Message := ExceptT.mk (.perform (.await p))

/-- Wait for the results of several messages, and of a last one if there is one,
whatever they are. -/
def gather (members : List Promise) (last : Option Promise) :
    Operation (List Settled × Option Settled) :=
  ExceptT.lift (.perform (.gather members last))

/-- See whether the device is known to have a group. -/
def hasGroup (g : GroupId) : Operation Bool := ExceptT.lift (.perform (.hasGroup g))

/-- Record that the device has a group. -/
def recordGroup (g : GroupId) : Operation Unit := ExceptT.lift (.perform (.recordGroup g))

/-- Record that the device does not have a group. -/
def forgetGroup (g : GroupId) : Operation Unit := ExceptT.lift (.perform (.forgetGroup g))

/-- Look up a group in the configuration, whatever comes of it. -/
def readGroup (g : GroupId) : Operation (Outcome (Option Group)) :=
  ExceptT.lift (.perform (.readGroup g))

/-- Note a flow as stale, whatever comes of it. -/
def noteStale (s : StaleFlow) : Operation (Outcome Unit) :=
  ExceptT.lift (.perform (.noteStale s))

def recordFlow (f : Flow) (d : FlowDescriptor) : Operation Unit :=
  ExceptT.lift (.perform (.recordFlow f d))

def forgetFlow (f : Flow) : Operation Unit := ExceptT.lift (.perform (.forgetFlow f))

def ofOutcome {α : Type} (o : Outcome α) : Operation α := ExceptT.mk (pure o)

def sendAll : List Message → Operation (List Promise)
  | [] => pure []
  | m :: ms => do
    let p ← send m
    let ps ← sendAll ms
    return p :: ps

end Operation

end Southbound
