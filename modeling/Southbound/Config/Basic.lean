import Southbound.Failure
import Southbound.Flow.Key
import Southbound.Group.ExistsRule
import Southbound.Text.Blank

/-!
# Settings

How long replies are waited for, what is known of devices, and what tells flows
apart.  `Config.validate` refuses settings with which nothing would work.
-/

namespace Southbound

open Json

/-- How long replies are waited for, in milliseconds. -/
structure Deadlines where
  /-- How long a reply to a change is waited for. -/
  request : UInt64 := 10000
  /-- How long a reply to a barrier is waited for. -/
  barrier : UInt64 := 30000
  /-- The time between two looks for requests that waited too long. -/
  sweep : UInt64 := 250
deriving DecidableEq, Repr, Inhabited

/-- How devices are spoken to. -/
structure DeviceSettings where
  /-- The words of a rejection that say that a group exists. -/
  signal : String := "GROUPEXISTS"
  /-- Whether these words count. -/
  textFallback : Bool := true
  /-- How many messages may wait to be written. -/
  capacity : UInt64 := 1024
  /-- Whether a flow is noted as stale before it is removed. -/
  staleMarking : Bool := true
deriving DecidableEq, Repr, Inhabited

/-- All settings of the pipeline. -/
structure Config where
  deadlines : Deadlines := {}
  device : DeviceSettings := {}
  keys : FlowKeyPolicy := {}
deriving DecidableEq, Repr, Inhabited

namespace Config

/-- How a rejection is known to say that a group exists. -/
def existsRule (c : Config) : GroupExistsRule := ⟨c.device.signal, c.device.textFallback⟩

def validate (c : Config) : Outcome Unit :=
  if c.deadlines.request = 0 then
    .error (.invalidConfig "request_timeout_ms must be greater than 0")
  else if c.deadlines.barrier = 0 then
    .error (.invalidConfig "barrier_timeout_ms must be greater than 0")
  else if c.deadlines.sweep = 0 then
    .error (.invalidConfig "sweep_interval_ms must be greater than 0")
  else if c.device.capacity = 0 then
    .error (.invalidConfig "outbound_queue_capacity must be greater than 0")
  else if c.device.textFallback && isBlankText c.device.signal then
    .error (.invalidConfig
      "group_exists_signal must not be empty when the text fallback is enabled")
  else .ok ()

end Config

/-! ## Documents -/

instance : Encode Deadlines where
  encode d := .object <|
    member "request_timeout_ms" d.request ++ member "barrier_timeout_ms" d.barrier ++
    member "sweep_interval_ms" d.sweep

instance : Decode Deadlines where
  decode p j := do
    let fields ← recordFields ["request_timeout_ms", "barrier_timeout_ms", "sweep_interval_ms"] j
    return {
      request := ← fieldOr p fields "request_timeout_ms" 10000
      barrier := ← fieldOr p fields "barrier_timeout_ms" 30000
      sweep := ← fieldOr p fields "sweep_interval_ms" 250 }

instance : Encode DeviceSettings where
  encode d := .object <|
    member "group_exists_signal" d.signal ++
    member "group_exists_text_fallback" d.textFallback ++
    member "outbound_queue_capacity" d.capacity ++ member "stale_marking" d.staleMarking

instance : Decode DeviceSettings where
  decode p j := do
    let fields ← recordFields
      ["group_exists_signal", "group_exists_text_fallback", "outbound_queue_capacity",
        "stale_marking"] j
    return {
      signal := ← fieldOr p fields "group_exists_signal" "GROUPEXISTS"
      textFallback := ← fieldOr p fields "group_exists_text_fallback" true
      capacity := ← fieldOr p fields "outbound_queue_capacity" 1024
      staleMarking := ← fieldOr p fields "stale_marking" true }

instance : Encode Config where
  encode c := .object <|
    member "transaction" c.deadlines ++ member "device" c.device ++ member "flow_hash" c.keys

instance : Decode Config where
  decode p j := do
    let fields ← recordFields ["transaction", "device", "flow_hash"] j
    return {
      deadlines := ← fieldOr p fields "transaction" {}
      device := ← fieldOr p fields "device" {}
      keys := ← fieldOr p fields "flow_hash" {} }

end Southbound
