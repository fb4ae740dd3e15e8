import Southbound.StaleFlow
import Southbound.Transaction.Registry

/-!
# Programs of operations

What an operation on a device does, one effect after another.  A `Program` is a
tree: at each effect it goes on with what the effect answers, and at a leaf it
has a value.  Nothing in it says how effects are carried out, so a program can
be run on a connection (`System.run`) or followed on paper.

An effect is about the device for which the program is run.
-/

namespace Southbound

/-! ## Effects -/

/-- The number of a connection, in the order in which they were opened. -/
abbrev ConnectionId := Nat

/-- The result of a message that was sent on a connection. -/
structure Promise where
  connection : ConnectionId
  reply : Reply
deriving Inhabited

def Promise.xid (p : Promise) : Xid := p.reply.xid

/-- What a program can do in one step. -/
inductive Effect where
  /-- Send a message under a new transaction id. -/
  | send (message : Message)
  /-- Wait for the result of a message. -/
  | await (promise : Promise)
  /-- Wait for the results of several messages, and of a last one if there is one. -/
  | gather (members : List Promise) (last : Option Promise)
  /-- See whether the device is known to have a group. -/
  | hasGroup (group : GroupId)
  /-- Record that the device has a group. -/
  | recordGroup (group : GroupId)
  /-- Record that the device does not have a group. -/
  | forgetGroup (group : GroupId)
  /-- Look up a group in the configuration. -/
  | readGroup (group : GroupId)
  | noteStale (flow : StaleFlow)
  | recordFlow (flow : Flow) (descriptor : FlowDescriptor)
  | forgetFlow (flow : Flow)

/-- The result of a message, with its transaction id. -/
abbrev Settled := Xid × Outcome Message

/-- What an effect gives back. -/
abbrev Effect.Answer : Effect → Type
  | .send _ => Promise
  | .await _ => Outcome Message
  | .gather _ _ => List Settled × Option Settled
  | .hasGroup _ => Bool
  | .recordGroup _ => Unit
  | .forgetGroup _ => Unit
  | .readGroup _ => Outcome (Option Group)
  | .noteStale _ => Outcome Unit
  | .recordFlow _ _ => Unit
  | .forgetFlow _ => Unit

/-! ## Programs -/

/-- Effects, one after another, and a value in the end. -/
inductive Program (α : Type) where
  | done (value : α)
  /-- An effect, and what follows its answer. -/
  | step (effect : Effect) (next : effect.Answer → Program α)

namespace Program

variable {α β : Type}

def bind : Program α → (α → Program β) → Program β
  | done a, f => f a
  | step e next, f => step e fun answer => (next answer).bind f

instance : Monad Program where
  pure := done
  bind := bind

def perform (e : Effect) : Program e.Answer := step e done

/-- The first effect of a program, if it has not come to its value. -/
def next? : Program α → Option Effect
  | done _ => none
  | step e _ => some e

end Program

end Southbound
