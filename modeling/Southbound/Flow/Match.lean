import Southbound.Identity

/-!
# Matches

Which packets a flow applies to.  A `Match` has sixteen optional fields, and a
field that is absent matches every packet.  The set of fields is fixed, so two
matches built in different orders from the same values are equal.

A value may carry a mask.  An absent mask asks for equality, which is not the
same field value as a mask of ones.
-/

namespace Southbound

/-! ## Field values -/

/-- The six octets of a hardware address. -/
structure Mac where
  o0 : UInt8
  o1 : UInt8
  o2 : UInt8
  o3 : UInt8
  o4 : UInt8
  o5 : UInt8
deriving DecidableEq, Repr, Inhabited

/-- The octets of a hardware address in order. -/
def Mac.octets (m : Mac) : List UInt8 := [m.o0, m.o1, m.o2, m.o3, m.o4, m.o5]

/-- The address with the given octets, if there are six. -/
def Mac.ofOctets? : List UInt8 → Option Mac
  | [a, b, c, d, e, f] => some ⟨a, b, c, d, e, f⟩
  | _ => none

theorem Mac.ofOctets?_octets (m : Mac) : Mac.ofOctets? m.octets = some m := rfl

/-- An internet address: four octets, the first written first. -/
structure Ipv4 where
  o0 : UInt8
  o1 : UInt8
  o2 : UInt8
  o3 : UInt8
deriving DecidableEq, Repr, Inhabited

/-- The octets of an internet address in order. -/
def Ipv4.octets (a : Ipv4) : List UInt8 := [a.o0, a.o1, a.o2, a.o3]

/-- A value of which only some bits may be compared. -/
structure Masked (α : Type) where
  value : α
  /-- The bits that are compared; all of them when absent. -/
  mask : Option α
deriving DecidableEq, Repr, Inhabited

def Masked.exact {α : Type} (value : α) : Masked α := ⟨value, none⟩

/-- A range of internet addresses that share their first bits. -/
structure Ipv4Prefix where
  addr : Ipv4
  /-- How many bits are shared. -/
  length : UInt8
deriving DecidableEq, Repr, Inhabited

def Ipv4Prefix.host (addr : Ipv4) : Ipv4Prefix := ⟨addr, 32⟩

/-! ## The fields -/

/-- The fields that a packet is compared on. -/
structure Match where
  inPort : Option UInt32 := none
  metadata : Option (Masked UInt64) := none
  ethSrc : Option (Masked Mac) := none
  ethDst : Option (Masked Mac) := none
  ethType : Option UInt16 := none
  vlanVid : Option UInt16 := none
  vlanPcp : Option UInt8 := none
  ipProto : Option UInt8 := none
  ipDscp : Option UInt8 := none
  ipv4Src : Option Ipv4Prefix := none
  ipv4Dst : Option Ipv4Prefix := none
  tcpSrc : Option UInt16 := none
  tcpDst : Option UInt16 := none
  udpSrc : Option UInt16 := none
  udpDst : Option UInt16 := none
  tunnelId : Option UInt64 := none
deriving DecidableEq, Repr, Inhabited

def Match.any : Match := {}

/-- Whether no field is compared. -/
def Match.isAny (m : Match) : Bool := m = Match.any

end Southbound
