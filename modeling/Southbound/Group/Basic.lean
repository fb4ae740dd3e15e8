import Southbound.Flow.Action

/-!
# Groups

A `Group` is a set of buckets that packets are handed to, configured for one
device.  Its type says which of the buckets a packet goes to.
-/

namespace Southbound

/-- Which buckets of a group a packet goes to. -/
inductive GroupType where
  | all
  | select
  | indirect
  | fastFailover
deriving DecidableEq, Repr, Inhabited

def GroupType.name : GroupType → String
  | .all => "all"
  | .select => "select"
  | .indirect => "indirect"
  | .fastFailover => "fast_failover"

/-- A list of actions of a group. -/
structure Bucket where
  /-- The share of packets, in a group of type `select`. -/
  weight : UInt16 := 0
  /-- The port whose state says whether the bucket is alive. -/
  watchPort : Option UInt32 := none
  /-- The group whose state says whether the bucket is alive. -/
  watchGroup : Option UInt32 := none
  actions : List Action := []
deriving DecidableEq, Repr, Inhabited

/-- A group, to which flows hand packets. -/
structure Group where
  id : GroupId
  type : GroupType := .all
  buckets : List Bucket := []
  /-- Ask for a barrier after the group. -/
  barrier : Bool := false
deriving DecidableEq, Repr, Inhabited

end Southbound
