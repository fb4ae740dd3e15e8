import Southbound.Message.Basic
import Southbound.Group.Json
import Southbound.Json.Printer
import Southbound.Json.Reader

/-!
# Messages on the wire

A frame is the document of one `Envelope`, in octets.  The kind of its message
is tagged beside by `type` and `payload`.
-/

namespace Southbound

open Json

/-! ## Documents -/

instance : Encode FlowCommand := ⟨fun c => encode c.name⟩

instance : Decode FlowCommand where
  decode := decodeNames
    [("add", .add), ("modify", .modify), ("modify_strict", .modifyStrict),
      ("delete", .delete), ("delete_strict", .deleteStrict)]

instance : Encode FlowMod where
  encode m := .object <|
    member "command" m.command ++ member "flow" m.flow ++ member "buffer_id" m.bufferId ++
    member "out_port" m.outPort ++ member "out_group" m.outGroup

instance : Decode FlowMod where
  decode p j := do
    let fields ← recordFields ["command", "flow", "buffer_id", "out_port", "out_group"] j
    return {
      command := ← requiredField p fields "command"
      flow := ← requiredField p fields "flow"
      bufferId := ← requiredField p fields "buffer_id"
      outPort := ← requiredField p fields "out_port"
      outGroup := ← requiredField p fields "out_group" }

instance : Encode GroupCommand := ⟨fun c => encode c.name⟩

instance : Decode GroupCommand where
  decode := decodeNames [("add", .add), ("modify", .modify), ("delete", .delete)]

instance : Encode GroupMod where
  encode m := .object <| member "command" m.command ++ member "group" m.group

instance : Decode GroupMod where
  decode p j := do
    let fields ← recordFields ["command", "group"] j
    return {
      command := ← requiredField p fields "command"
      group := ← requiredField p fields "group" }

instance : Encode Rejection where
  encode r := .object <|
    member "err_type" r.errType ++ member "code" r.code ++ member "text" r.text

instance : Decode Rejection where
  decode p j := do
    let fields ← recordFields ["err_type", "code", "text"] j
    return {
      errType := ← requiredField p fields "err_type"
      code := ← requiredField p fields "code"
      text := ← fieldOr p fields "text" "" }

/-- The tag of a message and the document of its payload. -/
def Message.parts : Message → String × Option Json
  | .flowMod mod => ("FlowMod", some (encode mod))
  | .groupMod mod => ("GroupMod", some (encode mod))
  | .barrierRequest => ("BarrierRequest", none)
  | .ack => ("Ack", none)
  | .barrierReply => ("BarrierReply", none)
  | .error rejection => ("Error", some (encode rejection))

instance : Encode Message where
  encode m := beside "type" "payload" m.parts.1 m.parts.2

instance : Decode Message where
  decode := decodeBeside "type" "payload"
    [("FlowMod", contentVariant Message.flowMod),
      ("GroupMod", contentVariant Message.groupMod),
      ("BarrierRequest", noContentVariant Message.barrierRequest),
      ("Ack", noContentVariant Message.ack),
      ("BarrierReply", noContentVariant Message.barrierReply),
      ("Error", contentVariant Message.error)]

instance : Encode Envelope where
  encode e := .object <| member "xid" e.xid ++ member "message" e.message

instance : Decode Envelope where
  decode p j := do
    let fields ← recordFields ["xid", "message"] j
    return {
      xid := ← requiredField p fields "xid"
      message := ← requiredField p fields "message" }

/-! ## Frames -/

/-- What is written to the wire in one piece. -/
abbrev Frame := List UInt8

def Envelope.toFrame (e : Envelope) : Frame := (encode e).octets

/-- The envelope that a frame carries, if it carries one. -/
def Envelope.ofFrame? (frame : Frame) : Option Envelope :=
  (Json.read frame).bind (decode {})

end Southbound
