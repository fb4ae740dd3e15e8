import Southbound.Flow.Json
import Southbound.Time.Moment

/-!
# Stale flows

Before a configured flow is removed from a device, the flow can be noted as
stale.  A `StaleFlow` says which flow and where it was configured, and a
`StaleMarker` adds when it was noted.
-/

namespace Southbound

open Json

/-- A configured flow that is about to be removed from its device. -/
structure StaleFlow where
  /-- Where it was configured. -/
  path : FlowPath
  flow : Flow
deriving DecidableEq, Repr

/-- A stale flow, and when it was noted. -/
structure StaleMarker where
  stale : StaleFlow
  /-- When it was noted. -/
  recordedAt : Moment
deriving DecidableEq, Repr

instance : Encode Moment := ⟨fun m => encode m.display⟩

instance : Decode Moment := ⟨fun p j => (decode p j).bind Moment.ofText?⟩

instance : Encode StaleMarker where
  encode m := .object <|
    member "device_id" m.stale.path.device ++ member "table_id" m.stale.path.table ++
    member "flow_id" m.stale.path.flow ++ member "flow" m.stale.flow ++
    member "recorded_at" m.recordedAt

instance : Decode StaleMarker where
  decode p j := do
    let fields ← recordFields ["device_id", "table_id", "flow_id", "flow", "recorded_at"] j
    return {
      stale := {
        path := {
          device := ← requiredField p fields "device_id"
          table := ← requiredField p fields "table_id"
          flow := ← requiredField p fields "flow_id" }
        flow := ← requiredField p fields "flow" }
      recordedAt := ← requiredField p fields "recorded_at" }

end Southbound
