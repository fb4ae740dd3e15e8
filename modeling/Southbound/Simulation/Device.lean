import Southbound.Message.Json

/-!
# Scripted devices

A device that answers messages by rules.  The first rule whose pattern fits a
message says what is answered.  A rule can be for so many uses only.  A message
that no rule fits is answered as a device does that takes everything: a barrier
with the reply to it, and all else with an acknowledgement.
-/

namespace Southbound

/-- What is asked of a message.  Only what is given has to fit. -/
structure MessagePattern where
  kind : Option String := none
  xid : Option Xid := none
  command : Option String := none
  group : Option GroupId := none
  /-- The priority of the flow that it changes. -/
  priority : Option UInt16 := none
deriving DecidableEq, Repr, Inhabited

/-- The name of the command of a message. -/
def Message.command? : Message → Option String
  | .flowMod m => some m.command.name
  | .groupMod m => some m.command.name
  | _ => none

def Message.group? : Message → Option GroupId
  | .groupMod m => some m.group.id
  | _ => none

/-- The priority of the flow that a message changes. -/
def Message.priority? : Message → Option UInt16
  | .flowMod m => some m.flow.priority
  | _ => none

/-- Whether a value, if one is asked for, is there. -/
def fits {α : Type} [DecidableEq α] (asked there : Option α) : Bool :=
  asked.isNone || asked = there

/-- Whether a message fits. -/
def MessagePattern.matches (p : MessagePattern) (e : Envelope) : Bool :=
  fits p.kind (some e.message.kind) && fits p.xid (some e.xid) &&
    fits p.command e.message.command? && fits p.group e.message.group? &&
    fits p.priority e.message.priority?

/-- What a device does about a message. -/
inductive DeviceAnswer where
  | silence
  | octets (frame : Frame)
  /-- With a message, under the transaction id of the request or another. -/
  | reply (message : Message) (xid : Option Xid)
deriving DecidableEq, Repr, Inhabited

/-- How a device answers the messages of a pattern. -/
structure DeviceRule where
  pattern : MessagePattern := {}
  answer : DeviceAnswer := .silence
  /-- How often the rule can still be used, if not always. -/
  uses : Option Nat := none
deriving DecidableEq, Repr, Inhabited

/-- A rule after it was used, if it can be used again. -/
def DeviceRule.used? (r : DeviceRule) : Option DeviceRule :=
  match r.uses with
  | none => some r
  | some n => if n ≤ 1 then none else some { r with uses := some (n - 1) }

/-- The far end of a connection, which answers by rules. -/
structure ScriptedDevice where
  /-- The name of the connection to it. -/
  name : String
  rules : List DeviceRule := []
  /-- Whether it reads only when it is told to. -/
  manual : Bool := false
  /-- Whether it only reads. -/
  silent : Bool := false
  /-- How many of the frames that it has read were reported. -/
  reported : Nat := 0
deriving Inhabited

namespace ScriptedDevice

/-- The first rule that fits, used once. -/
def useRule (e : Envelope) : List DeviceRule → Option DeviceAnswer × List DeviceRule
  | [] => (none, [])
  | r :: rs =>
    if r.pattern.matches e then (some r.answer, r.used?.toList ++ rs)
    else
      let (answer, rs) := useRule e rs
      (answer, r :: rs)

/-- How a message is answered that no rule fits. -/
def defaultReply : Message → Message
  | .barrierRequest => .barrierReply
  | _ => .ack

/-- The frame with which a message is answered, if it is. -/
def frameOf? (e : Envelope) : Option DeviceAnswer → Option Frame
  | none => some (Envelope.toFrame ⟨e.xid, defaultReply e.message⟩)
  | some .silence => none
  | some (.octets frame) => some frame
  | some (.reply m x) => some (Envelope.toFrame ⟨x.getD e.xid, m⟩)

/-- React to a frame: the answer, if there is one, and the device after it. -/
def react (d : ScriptedDevice) (frame : Frame) : Option Frame × ScriptedDevice :=
  if d.silent then (none, d)
  else match Envelope.ofFrame? frame with
    | none => (none, d)
    | some e =>
      let (answer, rules) := useRule e d.rules
      (frameOf? e answer, { d with rules })

end ScriptedDevice

end Southbound
