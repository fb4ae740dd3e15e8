import Southbound.Group.Basic
import Southbound.StaleFlow
import Southbound.Failure
import Southbound.Table

/-!
# The store of the configuration

Which groups are configured on which device, and which flows were noted as
stale.  Reads and writes can be made to fail, as those of a store elsewhere may.
-/

namespace Southbound

/-- What is configured, and which flows were noted as stale. -/
structure Store where
  groups : Table (DeviceId × GroupId) Group := {}
  /-- The stale flows, in the order in which they were noted. -/
  stale : List StaleFlow := []
  /-- Whether reads fail. -/
  failReads : Bool := false
  /-- Whether writes fail. -/
  failWrites : Bool := false
  /-- The failure of every read, if there is one. -/
  readFault : Option Failure := none
  /-- Whether whoever reads breaks off. -/
  breakReads : Bool := false
deriving Inhabited

namespace Store

/-- The configured group of a device with an id. -/
def group? (s : Store) (d : DeviceId) (g : GroupId) : Option Group := s.groups.get? (d, g)

def putGroup (s : Store) (d : DeviceId) (g : Group) : Store :=
  { s with groups := s.groups.set (d, g.id) g }

/-- Configure a group of a device no longer, and give it. -/
def removeGroup (s : Store) (d : DeviceId) (g : GroupId) : Option Group × Store :=
  (s.group? d g, { s with groups := s.groups.erase (d, g) })

/-- Look up a group.  There is no result if whoever reads breaks off. -/
def readGroup? (s : Store) (d : DeviceId) (g : GroupId) : Option (Outcome (Option Group)) :=
  if s.breakReads then none
  else match s.readFault with
    | some fault => some (.error fault)
    | none =>
      if s.failReads then
        some (.error (.storageError
          ("Read of group " ++ g.display ++ " on " ++ d.display ++ " failed")))
      else some (.ok (s.group? d g))

def noteStale (s : Store) (flow : StaleFlow) : Outcome Unit × Store :=
  if s.failWrites then
    (.error (.storageError
      ("Write of stale marker for " ++ flow.path.flow.text ++ " failed")), s)
  else (.ok (), { s with stale := s.stale ++ [flow] })

end Store

end Southbound
