import Southbound.Identity
import Southbound.Table

/-!
# Groups that are present

Which groups a device is known to have.  A group is recorded when the device
has confirmed it, and `GroupPresence.groups` lists the groups of a device by
their ids.
-/

namespace Southbound

/-- A list of group ids in ascending order with one more id. -/
def insertGroup (g : GroupId) : List GroupId → List GroupId
  | [] => [g]
  | h :: hs => if g.val < h.val then g :: h :: hs else if g = h then h :: hs else h :: insertGroup g hs

theorem mem_insertGroup {g h : GroupId} {gs : List GroupId} :
    h ∈ insertGroup g gs ↔ h = g ∨ h ∈ gs := by
  induction gs with
  | nil => simp [insertGroup]
  | cons k ks ih =>
    simp only [insertGroup]
    split
    · simp
    · split
      · next hk => subst hk; simp
      · simp only [List.mem_cons, ih]
        exact ⟨fun h => h.elim (.inr ∘ .inl) (fun h => h.elim .inl (.inr ∘ .inr)),
          fun h => h.elim (.inr ∘ .inl) (fun h => h.elim .inl (.inr ∘ .inr))⟩

/-- The groups that devices are known to have. -/
structure GroupPresence where
  /-- The groups of each device in ascending order.  A device without groups has no
  entry. -/
  devices : Table DeviceId (List GroupId) := {}
deriving Inhabited

namespace GroupPresence

/-- The groups of a device in ascending order. -/
def groups (r : GroupPresence) (d : DeviceId) : List GroupId := (r.devices.get? d).getD []

/-- Whether a device is known to have a group. -/
def contains (r : GroupPresence) (d : DeviceId) (g : GroupId) : Bool := (r.groups d).contains g

/-- Record that a device has a group, and say whether that is new. -/
def store (r : GroupPresence) (d : DeviceId) (g : GroupId) : Bool × GroupPresence :=
  (!r.contains d g, ⟨r.devices.set d (insertGroup g (r.groups d))⟩)

/-- Record that a device does not have a group, and say whether that is new.  The
entry of a device goes with its last group. -/
def remove (r : GroupPresence) (d : DeviceId) (g : GroupId) : Bool × GroupPresence :=
  let rest := (r.groups d).filter (· ≠ g)
  (r.contains d g, ⟨if rest.isEmpty then r.devices.erase d else r.devices.set d rest⟩)

def clearDevice (r : GroupPresence) (d : DeviceId) : GroupPresence := ⟨r.devices.erase d⟩

end GroupPresence

end Southbound
