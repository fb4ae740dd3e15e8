import Southbound.Flow.Action

/-!
# Flows

A `Flow` is one entry of a flow table as it is configured: what it matches,
how long it lives and what it does.

`Flow.groupDependency` is the first group that the flow hands packets to at
once.  `Flow.canModify` says whether one flow can replace another in place: a
device changes the instructions of an entry in place, and nothing that
identifies the entry or that it was created with.
-/

namespace Southbound

/-! ## Flags -/

/-- What a device is asked to do besides installing a flow. -/
structure FlowFlags where
  sendFlowRem : Bool := false
  checkOverlap : Bool := false
  resetCounts : Bool := false
  noPktCounts : Bool := false
  noBytCounts : Bool := false
deriving DecidableEq, Repr, Inhabited

/-- The flags as a bit map; the first flag is the lowest bit. -/
def FlowFlags.bits (f : FlowFlags) : UInt16 :=
  (if f.sendFlowRem then 1 else 0) ||| (if f.checkOverlap then 2 else 0) |||
    (if f.resetCounts then 4 else 0) ||| (if f.noPktCounts then 8 else 0) |||
    (if f.noBytCounts then 16 else 0)

/-- The flags of a bit map.  Bits above the fifth are ignored. -/
def FlowFlags.ofBits (bits : UInt16) : FlowFlags where
  sendFlowRem := bits &&& 1 ≠ 0
  checkOverlap := bits &&& 2 ≠ 0
  resetCounts := bits &&& 4 ≠ 0
  noPktCounts := bits &&& 8 ≠ 0
  noBytCounts := bits &&& 16 ≠ 0

theorem FlowFlags.ofBits_bits (f : FlowFlags) : FlowFlags.ofBits f.bits = f := by
  rcases f with ⟨_ | _, _ | _, _ | _, _ | _, _ | _⟩ <;> decide

/-! ## Flows -/

/-- A flow: which packets it matches, and what is done to them. -/
structure Flow where
  /-- The configured id; a flow only seen on a device has none. -/
  id : Option FlowId := none
  table : TableId
  /-- Flows of higher priority are matched first. -/
  priority : UInt16 := 32768
  /-- A number the controller attaches to the flow. -/
  cookie : UInt64 := 0
  /-- The bits of the cookie that a change or removal compares. -/
  cookieMask : UInt64 := 0
  /-- Seconds without a packet after which the flow is removed. -/
  idleTimeout : UInt16 := 0
  /-- Seconds after which the flow is removed. -/
  hardTimeout : UInt16 := 0
  flags : FlowFlags := {}
  fields : Match := {}
  instructions : List Instruction := []
  /-- Change or remove only the flow with the same match and priority. -/
  strict : Bool := false
  /-- Remove only flows that output to this port. -/
  outPort : Option UInt32 := none
  /-- Remove only flows that hand packets to this group. -/
  outGroup : Option UInt32 := none
  /-- Ask for a barrier after the flow. -/
  barrier : Bool := false
deriving DecidableEq, Repr, Inhabited

/-- The same flow, to be changed or removed strictly. -/
def Flow.toStrict (f : Flow) : Flow := { f with strict := true }

/-- The groups that a flow hands packets to at once, in order. -/
def Flow.appliedGroups (f : Flow) : List GroupId :=
  (f.instructions.flatMap Instruction.appliedActions).filterMap Action.groupId?

/-- The group that has to be on the device before the flow: the first of the
groups that the flow hands packets to at once. -/
def Flow.groupDependency (f : Flow) : Option GroupId := f.appliedGroups.head?

/-- Whether `updated` can take the place of `old` in place. -/
def Flow.canModify (old updated : Flow) : Bool :=
  old.table = updated.table ∧ old.priority = updated.priority ∧
    old.fields = updated.fields ∧ old.idleTimeout = updated.idleTimeout ∧
    old.hardTimeout = updated.hardTimeout ∧ old.flags = updated.flags ∧
    old.cookie = updated.cookie

end Southbound
